import RequestForms.Text.Quoted

/-!
# Writing JSON

Objects have one member a line. In strings only the quotation mark, the backslash and the control
characters are escaped.
-/

namespace RequestForms.Json

def escaped (c : Char) : List Char :=
  if c = '"' then ['\\', '"']
  else if c = '\\' then ['\\', '\\']
  else if c = '\x08' then ['\\', 'b']
  else if c = '\x0c' then ['\\', 'f']
  else if c = '\n' then ['\\', 'n']
  else if c = '\r' then ['\\', 'r']
  else if c = '\t' then ['\\', 't']
  else if c.toNat < 0x20 then '\\' :: 'u' :: Text.hex 'a' 4 c.toNat
  else [c]

def stringLiteral (text : String) : String :=
  String.ofList ('"' :: text.toList.flatMap escaped ++ ['"'])

def block (indent : String) (members : List (String × String)) : String :=
  if members.isEmpty then "\x7b\x7d"
  else
    let line := fun member : String × String =>
      indent ++ "  " ++ stringLiteral member.1 ++ ": " ++ member.2
    "\x7b\n" ++ ",\n".intercalate (members.map line) ++ "\n" ++ indent ++ "\x7d"

end RequestForms.Json
