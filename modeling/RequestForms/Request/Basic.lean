import RequestForms.Headers
import RequestForms.Method

/-!
# Requests

One HTTP request, whatever form it was written in.
-/

namespace RequestForms

structure Credentials where
  user : String
  password : String
deriving DecidableEq, Inhabited

namespace Credentials

def joined (credentials : Credentials) : String :=
  credentials.user ++ ":" ++ credentials.password

end Credentials

structure Request where
  method : Method := Method.get
  url : String := ""
  headers : Headers := Headers.empty
  body : Option String := none
  contentType : Option String := none
  credentials : Option Credentials := none
  followRedirects : Bool := true
  insecure : Bool := false
deriving DecidableEq, Inhabited

namespace Request

/-- The body, if there is one and it is not empty. -/
def content (request : Request) : Option String :=
  request.body.filter fun body => body ≠ ""

/-- Whether a call needs more than the address of the request. -/
def hasOptions (request : Request) : Bool :=
  request.method.name != "GET" || !request.headers.isEmpty || request.content.isSome ||
    request.credentials.isSome

end Request

end RequestForms
