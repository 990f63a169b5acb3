import RequestForms.Text.Blank
import RequestForms.Text.Casing

/-!
# Request methods

A method is written in upper case without blanks around it, and an empty one means `GET`.
-/

namespace RequestForms

def normalMethodName (raw : String) : String :=
  let name := Text.toUpper (Text.trim raw)
  if name = "" then "GET" else name

structure Method where
  name : String
  isNormal : ∃ raw, normalMethodName raw = name
deriving DecidableEq

namespace Method

def ofString (raw : String) : Method := ⟨normalMethodName raw, raw, rfl⟩

def get : Method := ofString "GET"

instance : Inhabited Method := ⟨get⟩

theorem name_ne_empty (method : Method) : method.name ≠ "" := by
  obtain ⟨name, raw, rfl⟩ := method
  simp only [normalMethodName]
  split
  · decide
  · assumption

end Method

end RequestForms
