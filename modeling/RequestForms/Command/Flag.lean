/-!
# The flags of a command

A flag either stands alone or takes the word behind it as its value.
-/

namespace RequestForms.Command

inductive Switch where
  | location
  | insecure
  | head
  | compressed
deriving DecidableEq, Repr

inductive Setting where
  | request
  | header
  | data
  | dataUrlencode
  | json
  | user
  | userAgent
  | cookie
  | referer
  | url
deriving DecidableEq, Repr

inductive Flag where
  | switch (flag : Switch)
  | setting (flag : Setting)
deriving DecidableEq, Repr

def Flag.ofWord? (word : String) : Option Flag :=
  match word with
  | "-X" | "--request" => some (.setting .request)
  | "-H" | "--header" => some (.setting .header)
  | "-d" | "--data" | "--data-raw" | "--data-binary" | "--data-ascii" => some (.setting .data)
  | "--data-urlencode" => some (.setting .dataUrlencode)
  | "--json" => some (.setting .json)
  | "-u" | "--user" => some (.setting .user)
  | "-L" | "--location" => some (.switch .location)
  | "-k" | "--insecure" => some (.switch .insecure)
  | "-I" | "--head" => some (.switch .head)
  | "-A" | "--user-agent" => some (.setting .userAgent)
  | "-b" | "--cookie" => some (.setting .cookie)
  | "-e" | "--referer" => some (.setting .referer)
  | "--compressed" => some (.switch .compressed)
  | "--url" => some (.setting .url)
  | _ => none

/-- A part of a command: a flag with its value if it takes one, or a word that is no flag. -/
inductive Item where
  | switch (flag : Switch)
  | setting (flag : Setting) (value : String)
  | word (text : String)
deriving DecidableEq, Repr

/-- The parts of an argument list. A flag that lacks its value at the end is left out. -/
def items : List String → List Item
  | [] => []
  | word :: rest =>
      match Flag.ofWord? word with
      | none => .word word :: items rest
      | some (.switch flag) => .switch flag :: items rest
      | some (.setting flag) =>
          match rest with
          | [] => []
          | value :: rest => .setting flag value :: items rest

end RequestForms.Command
