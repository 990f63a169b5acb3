import RequestForms.Json.Failure

/-!
# Taking values off a text

A reader takes a value off the front of a text and hands on the rest, which is shorter. A failure
is marked by what is left of the text at its place.
-/

namespace RequestForms.Json

/-- A failure, with the rest of the text from its place on. -/
inductive Stop where
  | malformed (fault : Fault) (rest : List Char)
  | integerTooLong (digits : Nat)
  | tooDeep (container : Container)

/-- A value and what is left of a text behind it, which is less than before. -/
structure Taken (α : Type) (text : List Char) where
  value : α
  rest : List Char
  shorter : rest.length < text.length

abbrev Reader (α : Type) : Type := (text : List Char) → Except Stop (Taken α text)

def isSpace (c : Char) : Bool := c = ' ' || c = '\t' || c = '\n' || c = '\r'

def skipSpace (text : List Char) : List Char := text.dropWhile isSpace

theorem length_skipSpace_le (text : List Char) : (skipSpace text).length ≤ text.length :=
  (List.dropWhile_sublist isSpace).length_le

theorem length_lt_of_skipSpace_eq {text rest : List Char} {c : Char}
    (h : skipSpace text = c :: rest) : rest.length < text.length := by
  have := length_skipSpace_le text
  rw [h, List.length_cons] at this
  omega

end RequestForms.Json
