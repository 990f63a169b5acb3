import RequestForms.Decimal.Display
import RequestForms.Json.Basic
import RequestForms.Text.Quoted

/-!
# JSON values as text

The text that stands for a value where a text is wanted. A string stands for itself, but is quoted
inside an array or an object.
-/

namespace RequestForms.Json

mutual

def quoted : Json → String
  | null => "None"
  | bool true => "True"
  | bool false => "False"
  | int value => toString value
  | double value => value.display
  | string text => Text.quoted text
  | array elements => "[" ++ ", ".intercalate (quotedElements elements) ++ "]"
  | object members => "\x7b" ++ ", ".intercalate (quotedMembers members) ++ "\x7d"

def quotedElements : List Json → List String
  | [] => []
  | value :: rest => value.quoted :: quotedElements rest

def quotedMembers : List (String × Json) → List String
  | [] => []
  | (name, value) :: rest => (Text.quoted name ++ ": " ++ value.quoted) :: quotedMembers rest

end

def display : Json → String
  | string text => text
  | value => value.quoted

def kindName : Json → String
  | null => "NoneType"
  | bool _ => "bool"
  | int _ => "int"
  | double _ => "float"
  | string _ => "str"
  | array _ => "list"
  | object _ => "dict"

end RequestForms.Json
