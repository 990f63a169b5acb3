import RequestForms.Json.Reader
import RequestForms.Text.Blank

/-!
# Literals in generated calls

Texts become string literals between single quotes, and a body that is JSON already stands as it
is.
-/

namespace RequestForms.Snippet

def escaped (c : Char) : List Char := if c = '\\' ∨ c = '\'' then ['\\', c] else [c]

def quoteChars (s : List Char) : List Char := '\'' :: s.flatMap escaped ++ ['\'']

def quote (s : String) : String := String.ofList (quoteChars s.toList)

def jsonLiteral? (body : String) : Option String :=
  match Json.read body with
  | .ok _ => some (Text.trim body)
  | .error _ => none

/-- A body as it stands in a call: JSON if anything is left of it without the blanks, and otherwise
a string literal. -/
def bodyLiteral (body : String) : String :=
  ((jsonLiteral? body).filter fun literal => literal ≠ "").getD (quote body)

end RequestForms.Snippet
