import RequestForms.Request.Basic
import RequestForms.Shell.Words
import RequestForms.Text.Blank

/-!
# The arguments of a command

A command may be broken over lines with a backslash at each line's end, and may start with the
name of the program. What is left is cut into words. It is written with one flag a line.
-/

namespace RequestForms.Command

/-- A text with each continuation, a backslash and a line break with the blanks behind them,
replaced by one space. -/
def joinLines : List Char → List Char
  | '\\' :: '\n' :: rest => ' ' :: joinLines (Text.stripStart rest)
  | '\\' :: '\r' :: '\n' :: rest => ' ' :: joinLines (Text.stripStart rest)
  | c :: rest => c :: joinLines rest
  | [] => []
termination_by text => text.length
decreasing_by
  · have := Text.length_stripStart_le rest
    simp only [List.length_cons]
    omega
  · have := Text.length_stripStart_le rest
    simp only [List.length_cons]
    omega
  · simp

/-- A text without a leading `curl` and the blanks behind it. The word stays when nothing blank
follows it. -/
def dropProgramName : List Char → List Char
  | 'c' :: 'u' :: 'r' :: 'l' :: b :: rest =>
      if Text.isBlank b then Text.stripStart rest else 'c' :: 'u' :: 'r' :: 'l' :: b :: rest
  | text => text

/-- A command on one line, without blanks around it and without the program's name. -/
def normalizeChars (text : List Char) : List Char :=
  dropProgramName (Text.strip (joinLines text))

def normalize (text : String) : String := String.ofList (normalizeChars text.toList)

def arguments (text : String) : List String := Shell.words (normalize text)

def parts (request : Request) : List String :=
  ["curl"] ++
    (if request.method.name = "GET" then [] else ["-X " ++ request.method.name]) ++
    [Shell.quote request.url] ++
    (request.headers.entries.map fun header =>
      "-H " ++ Shell.quote (header.1 ++ ": " ++ header.2)) ++
    (request.credentials.toList.map fun credentials => "-u " ++ Shell.quote credentials.joined) ++
    (request.content.toList.map fun body => "-d " ++ Shell.quote body) ++
    (if request.insecure then ["-k"] else [])

def render (request : Request) : String := " \\\n  ".intercalate (parts request)

end RequestForms.Command
