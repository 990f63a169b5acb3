import RequestForms.Decimal.Binary64

/-!
# JSON values

Whole numbers keep all their digits, and the members of an object keep their order.
-/

namespace RequestForms

inductive Json where
  | null
  | bool (value : Bool)
  | int (value : Int)
  | double (value : Double)
  | string (text : String)
  | array (elements : List Json)
  | object (members : List (String × Json))
deriving Inhabited

namespace Json

/-- The member of an object. A value of another kind has no members. -/
def member? (name : String) : Json → Option Json
  | object members => members.lookup name
  | _ => none

/-- A member of an object, null where it is absent. -/
def member (name : String) (value : Json) : Json := (value.member? name).getD null

/-- Whether a value says something: all do but null, `false`, zeros and what is empty. -/
def isTruthy : Json → Bool
  | null => false
  | bool value => value
  | int value => value != 0
  | double value => !value.isZero
  | string text => text != ""
  | array elements => !elements.isEmpty
  | object members => !members.isEmpty

def orElse (value default : Json) : Json := if value.isTruthy then value else default

end Json

end RequestForms
