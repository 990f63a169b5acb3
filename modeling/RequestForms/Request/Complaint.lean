import RequestForms.Json.Wording
import RequestForms.Text.Quoted

/-!
# Complaints about loose values

A value that does not fit is reported with the names that lead to it and with its text.
-/

namespace RequestForms

inductive Mismatch where
  | notText
  | notMapping
  | notCredentials
  | notFlag
  | notFlagWord
  | missing
deriving DecidableEq, Repr

namespace Mismatch

def code : Mismatch → String
  | notText => "string_type"
  | notMapping => "dict_type"
  | notCredentials => "model_type"
  | notFlag => "bool_type"
  | notFlagWord => "bool_parsing"
  | missing => "missing"

def message : Mismatch → String
  | notText => "Input should be a valid string"
  | notMapping => "Input should be a valid dictionary"
  | notCredentials => "Input should be a valid dictionary or instance of BasicAuth"
  | notFlag => "Input should be a valid boolean"
  | notFlagWord => "Input should be a valid boolean, unable to interpret input"
  | missing => "Field required"

end Mismatch

/-- A value that does not fit, with the names that lead to it. -/
structure Complaint where
  path : List String
  mismatch : Mismatch
  given : Json

def Complaint.report (complaint : Complaint) : String :=
  let value := String.ofList (Text.abridged complaint.given.quoted.toList)
  let code := complaint.mismatch.code
  ".".intercalate complaint.path ++ "\n  " ++ complaint.mismatch.message ++
    s!" [type={code}, input_value={value}, input_type={complaint.given.kindName}]\n" ++
    s!"    For further information visit https://errors.pydantic.dev/2.14/v/{code}"

def Complaint.reportAll (kind : String) (complaints : List Complaint) : String :=
  let count := complaints.length
  let noun := if count = 1 then "error" else "errors"
  "\n".intercalate (s!"{count} validation {noun} for {kind}" :: complaints.map Complaint.report)

end RequestForms
