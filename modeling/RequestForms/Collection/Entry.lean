import RequestForms.Collection.Node
import RequestForms.Json.Wording
import RequestForms.Request.Fields

/-!
# The request of a leaf

A leaf gives its address, headers, body and credentials in several shapes. Parts may be absent, and
most values may be of any kind and count as their text.
-/

namespace RequestForms.Collection

inductive Fault where
  | notIterable (value : Json)
  | unhashable (value : Json)
  | invalid (complaints : List Complaint)

def Fault.message : Fault → String
  | notIterable value => s!"'{value.kindName}' object is not iterable"
  | unhashable value => s!"unhashable type: '{value.kindName}'"
  | invalid complaints => Complaint.reportAll "RequestRecord" complaints

def objects (values : List Json) : List Json := values.filter fun
  | .object _ => true
  | _ => false

/-- A text that stands for nothing when its value says nothing. -/
def textOr (default : String) (value : Json) : String := (value.orElse (.string default)).display

def formField (entry : Json) : String :=
  ((entry.member? "key").getD (.string "")).display ++ "=" ++ textOr "" (entry.member "value")

/-- The parts of a list as one text. A value that is no list stands for itself. -/
def joined (separator : String) : Json → Json
  | .array parts => .string (separator.intercalate (parts.map Json.display))
  | value => value.orElse (.string "")

/-- The fields of a query that are in use. Neither a string nor an object has any, and a number or
a flag is no list of fields. -/
def queryFields (query : Json) : Except Fault (List String) :=
  if !query.isTruthy then .ok []
  else
    match query with
    | .array entries =>
        .ok (((objects entries).filter fun entry =>
          !(entry.member "disabled").isTruthy).map formField)
    | .string _ | .object _ => .ok []
    | value => .error (.notIterable value)

def assembledUrl (url : Json) (fields : List String) : String :=
  let host := ((joined "." (url.member "host")).orElse (.string "localhost")).display
  let port := url.member "port"
  let authority := if port.isTruthy then host ++ ":" ++ port.display else host
  let path := (joined "/" (url.member "path")).display
  let address := textOr "https" (url.member "protocol") ++ "://" ++ authority ++ "/" ++ path
  if fields.isEmpty then address else address ++ "?" ++ "&".intercalate fields

/-- The address of a request: a text, or an object that has it as a whole or in parts. -/
def urlOf : Json → Except Fault Json
  | .string text => .ok (.string text)
  | .object members =>
      let url := Json.object members
      let raw := url.member "raw"
      if raw.isTruthy then .ok raw
      else (queryFields (url.member "query")).map fun fields => .string (assembledUrl url fields)
  | _ => .ok (.string "")

/-- The headers of a request. An entry without a name does not count. -/
def headersOf : Json → Headers
  | .array entries =>
      Headers.ofPairs ((objects entries).filterMap fun entry =>
        (entry.member? "key").map fun name => (name.display, textOr "" (entry.member "value")))
  | _ => Headers.empty

def bodyOf (body : Json) : Json :=
  match body.member "mode" with
  | .string "raw" => (body.member "raw").orElse .null
  | .string "urlencoded" =>
      match body.member "urlencoded" with
      | .array entries =>
          match objects entries with
          | [] => .null
          | entries => .string ("&".intercalate (entries.map formField))
      | _ => .null
  | _ => .null

/-- The values that some entries give to names. A name must not hold other values, and one that is
no text names nothing. -/
def namedValues : List Json → Except Fault (List (String × Json))
  | [] => .ok []
  | entry :: rest =>
      match entry.member "key" with
      | .array elements => .error (.unhashable (.array elements))
      | .object members => .error (.unhashable (.object members))
      | .string name => (namedValues rest).map ((name, entry.member "value") :: ·)
      | _ => namedValues rest

/-- The credentials among named values. Without a user name there are none. -/
def credentialsIn (values : Json) : Option Credentials :=
  match values.member "username" with
  | .null => none
  | user => some ⟨user.display, textOr "" (values.member "password")⟩

def credentialsOf (auth : Json) : Except Fault (Option Credentials) :=
  match auth.member "type" with
  | .string "basic" =>
      match auth.member "basic" with
      | .object members => .ok (credentialsIn (.object members))
      | .array entries =>
          (namedValues (objects entries)).map fun values =>
            credentialsIn (.object (Assoc.ofPairs values))
      | _ => .ok none
  | _ => .ok none

def Leaf.request : Leaf → Except Fault Request
  | .address url => .ok { url }
  | .fields members =>
      let source := Json.object members
      match urlOf (source.member "url"), credentialsOf (source.member "auth") with
      | .error fault, _ => .error fault
      | .ok _, .error fault => .error fault
      | .ok url, .ok credentials =>
          let checked := (fun method url body =>
              { method, url, headers := headersOf (source.member "header"), body, credentials :
                Request })
            <$> (Method.ofString <$>
              Checked.text ["method"] ((source.member "method").orElse (.string "GET")))
            <*> Checked.text ["url"] url
            <*> Checked.optionalText ["body"] (bodyOf (source.member "body"))
          match checked with
          | .accepted request => .ok request
          | .refused complaints => .error (.invalid complaints)

/-- The requests of a collection, one for each leaf. The first leaf that is no request fails. -/
def requests (collection : Json) : Except Fault (List Request) :=
  (leaves collection).mapM Leaf.request

end RequestForms.Collection
