import RequestForms.Command.Arguments
import RequestForms.Command.Flag
import RequestForms.Request.Basic
import RequestForms.Text.Search

/-!
# Reading a command

The parts of a command are applied one after another to a session, which ends up as a request.
-/

namespace RequestForms.Command

/-- What the parts of a command have said so far. -/
structure Session where
  method : String := "GET"
  methodIsExplicit : Bool := false
  url : String := ""
  headers : Headers := Headers.empty
  body : Option String := none
  contentType : Option String := none
  credentials : Option Credentials := none
  followRedirects : Bool := true
  insecure : Bool := false
deriving DecidableEq, Inhabited

namespace Session

/-- Sets a header, and remembers its value as the content type if it is that one. -/
def setHeader (name value : String) (session : Session) : Session :=
  { session with
    headers := session.headers.set name value
    contentType :=
      if Text.toLower name = "content-type" then some value else session.contentType }

/-- Sets a header unless it is present in some spelling. -/
def supplyHeader (name value : String) (session : Session) : Session :=
  if session.headers.has name then session else session.setHeader name value

/-- Changes the method unless the command named one. -/
def implyMethod (method : String) (session : Session) : Session :=
  if session.methodIsExplicit then session else { session with method }

/-- Makes a text the body, which implies `POST`. -/
def setBody (body : String) (session : Session) : Session :=
  { session with body := some body }.implyMethod "POST"

/-- Adds a form field to the body, behind `&` if the body has text already. -/
def appendField (field : String) (session : Session) : Session :=
  let body :=
    match session.body with
    | none | some "" => field
    | some text => text ++ "&" ++ field
  let session := session.setBody body
  match session.contentType with
  | none | some "" => session.setHeader "Content-Type" "application/x-www-form-urlencoded"
  | some _ => session

/-- The name and the value of a header line, without blanks around them. Nothing before the colon
means no header. -/
def headerOfLine? (line : String) : Option (String × String) :=
  match Text.splitFirst? ':' line.toList with
  | none | some ([], _) => none
  | some (name, value) =>
      some (String.ofList (Text.strip name), String.ofList (Text.strip value))

def credentialsOf (text : String) : Credentials :=
  match Text.splitFirst? ':' text.toList with
  | none => ⟨text, ""⟩
  | some (user, password) => ⟨String.ofList user, String.ofList password⟩

def looksLikeUrl (word : String) : Bool :=
  "http".toList.isPrefixOf word.toList || "/".toList.isPrefixOf word.toList

def applySwitch (session : Session) : Switch → Session
  | .location => { session with followRedirects := true }
  | .insecure => { session with insecure := true }
  | .head => session.implyMethod "HEAD"
  | .compressed =>
      if session.headers.has "Accept-Encoding" then session
      else { session with headers := session.headers.set "Accept-Encoding" "gzip, deflate, br" }

def applySetting (session : Session) (value : String) : Setting → Session
  | .request => { session with method := Text.toUpper value, methodIsExplicit := true }
  | .header =>
      match headerOfLine? value with
      | none => session
      | some (name, text) => session.setHeader name text
  | .data => session.setBody value
  | .dataUrlencode => session.appendField value
  | .json =>
      ((session.setBody value).supplyHeader "Content-Type" "application/json").supplyHeader
        "Accept" "application/json"
  | .user => { session with credentials := some (credentialsOf value) }
  | .userAgent => session.setHeader "User-Agent" value
  | .cookie => session.setHeader "Cookie" value
  | .referer => session.setHeader "Referer" value
  | .url => { session with url := value }

/-- Applies one part of a command. Of several addresses the last counts. -/
def apply (session : Session) : Item → Session
  | .switch flag => session.applySwitch flag
  | .setting flag value => session.applySetting value flag
  | .word text => if looksLikeUrl text then { session with url := text } else session

def request (session : Session) : Request where
  method := Method.ofString session.method
  url := session.url
  headers := session.headers
  body := session.body
  contentType := session.contentType
  credentials := session.credentials
  followRedirects := session.followRedirects
  insecure := session.insecure

end Session

def run (args : List String) : Session := (items args).foldl Session.apply {}

def ofArguments (args : List String) : Request := (run args).request

def read (text : String) : Request := ofArguments (arguments text)

end RequestForms.Command
