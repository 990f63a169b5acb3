import RequestForms.Request.Basic
import RequestForms.Request.Checked

/-!
# Requests from loose fields

A request is built from named JSON values. Complaints come in the order in which its fields are
declared.
-/

namespace RequestForms

open Checked

/-- The value of a field that has several names, under the first of them that is present. -/
def field? (fields : List (String × Json)) : List String → Option (String × Json)
  | [] => none
  | name :: names =>
      match fields.lookup name with
      | some value => some (name, value)
      | none => field? fields names

def optionalField {α : Type} (fields : List (String × Json)) (names : List String) (default : α)
    (check : List String → Json → Checked α) : Checked α :=
  match field? fields names with
  | some (name, value) => check [name] value
  | none => accepted default

def Credentials.ofFields (path : List String) (fields : List (String × Json)) :
    Checked Credentials :=
  let user :=
    match field? fields ["user"] with
    | some (name, value) => text (path ++ [name]) value
    | none => refuse (path ++ ["user"]) .missing (.object fields)
  let password :=
    optionalField fields ["pass", "password"] "" fun names => text (path ++ names)
  Credentials.mk <$> user <*> password

def Checked.credentials (path : List String) : Json → Checked (Option Credentials)
  | .null => accepted none
  | .object fields => some <$> Credentials.ofFields path fields
  | given => refuse path .notCredentials given

/-- A request from its fields. Absent ones have their defaults, and unknown ones do not count. -/
def Request.ofFields (fields : List (String × Json)) : Checked Request :=
  Request.mk
    <$> optionalField fields ["method"] Method.get (fun path v => Method.ofString <$> text path v)
    <*> optionalField fields ["url"] "" text
    <*> optionalField fields ["headers"] Headers.empty Checked.headers
    <*> optionalField fields ["body"] none optionalText
    <*> optionalField fields ["contentType", "content_type"] none optionalText
    <*> optionalField fields ["auth"] none Checked.credentials
    <*> optionalField fields ["followRedirects", "follow_redirects"] true flag
    <*> optionalField fields ["insecure"] false flag

end RequestForms
