import RequestForms.Json.Literal
import RequestForms.Request.Basic
import RequestForms.Text.Halves
import RequestForms.Yaml.Scalar

/-!
# A request as a document

The named members that a written record of a request consists of, as JSON and as YAML. YAML has one
member a line, with the entries of a group indented by two spaces. It escapes halves of pairs, and
in JSON there is no place for them.
-/

namespace RequestForms

inductive Member where
  | text (value : String)
  | flag (value : Bool)
  | group (entries : List (String × String))
deriving DecidableEq

/-- The value of a member on the first level. -/
def Member.toJson : Member → String
  | .text value => Json.stringLiteral value
  | .flag value => if value then "true" else "false"
  | .group entries =>
      Json.block "  " (entries.map fun entry => (entry.1, Json.stringLiteral entry.2))

namespace Request

def optionalMember (name : String) (value : Option Member) : List (String × Member) :=
  match value with
  | none => []
  | some value => [(name, value)]

def credentialMembers (credentials : Credentials) : List (String × String) :=
  [("user", credentials.user), ("pass", credentials.password)]

/-- The members of a request in their order. Those without a value are left out. -/
def members (request : Request) : List (String × Member) :=
  [("method", .text request.method.name), ("url", .text request.url),
      ("headers", .group request.headers.entries)] ++
    optionalMember "body" (request.body.map .text) ++
    optionalMember "contentType" (request.contentType.map .text) ++
    optionalMember "auth" (request.credentials.map fun c => .group (credentialMembers c)) ++
    [("followRedirects", .flag request.followRedirects), ("insecure", .flag request.insecure)]

def toJson (request : Request) : String :=
  Json.block "" (request.members.map fun member => (member.1, member.2.toJson))

def memberLines : String × Member → List (List Char)
  | (name, .text value) => [Yaml.textEntry 0 name.toList value.toList]
  | (name, .flag value) =>
      [Yaml.keyPart 0 name.toList ++ (if value then " true" else " false").toList]
  | (name, .group []) => [Yaml.keyPart 0 name.toList ++ " \x7b\x7d".toList]
  | (name, .group entries) =>
      Yaml.keyPart 0 name.toList ::
        entries.map fun entry => Yaml.textEntry 2 entry.1.toList entry.2.toList

def toYaml (request : Request) : String :=
  String.ofList (['\n'].intercalate (request.members.flatMap memberLines))

end Request

/-! ## Requests without halves -/

def Credentials.plain (credentials : Twofold Credentials) :
    Except Text.EncodeFault Credentials := do
  let user ← Text.plain (credentials.map user)
  let password ← Text.plain (credentials.map password)
  return ⟨user, password⟩

def Headers.plain (headers : Twofold Headers) : Except Text.EncodeFault Headers := do
  let pairs ← (Twofold.ofLists headers.first.entries headers.second.entries).mapM fun entry => do
    let name ← Text.plain (entry.map Prod.fst)
    let value ← Text.plain (entry.map Prod.snd)
    return (name, value)
  return ofPairs pairs

/-- A request in which no text holds a half. Of several the first in the order of the members
counts. -/
def Request.plain (request : Twofold Request) : Except Text.EncodeFault Request := do
  let first := request.first
  let second := request.second
  let method ← Text.plain ⟨first.method.name, second.method.name⟩
  let url ← Text.plain ⟨first.url, second.url⟩
  let headers ← Headers.plain ⟨first.headers, second.headers⟩
  let body ← (Twofold.ofOptions first.body second.body).mapM Text.plain
  let contentType ← (Twofold.ofOptions first.contentType second.contentType).mapM Text.plain
  let credentials ←
    (Twofold.ofOptions first.credentials second.credentials).mapM Credentials.plain
  return { first with
    method := Method.ofString method, url, headers, body, contentType, credentials }

end RequestForms
