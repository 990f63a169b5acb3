import RequestForms.CommandLine.Files
import RequestForms.Format
import RequestForms.Text.Utf8

/-!
# Runs of the program

All that a run depends on, what it leaves behind, and why it fails.
-/

namespace RequestForms.CommandLine

structure Invocation where
  args : List String
  /-- The output form that the environment names. -/
  defaultTarget : Option String := none
  /-- The input form that the environment names. -/
  defaultSource : Option String := none
  input : List UInt8 := []
  directory : String
  bytesOf : Path → Except FileFault (List UInt8)
  outputIsTerminal : Bool := false
  errorIsTerminal : Bool := false

structure Outcome where
  exit : Nat
  output : String
  error : String
deriving DecidableEq, Repr

inductive RunError where
  | unreadableFile (name : String) (path : Path) (fault : FileFault)
  | undecodableFile (name : String) (fault : Text.DecodeFault)
  | undecodableInput (fault : Text.DecodeFault)
  | noInput
  | undetected
  | conversion (error : Twofold ConversionError)
  | unwritable (fault : Text.EncodeFault)
  | unserializable (fault : Text.EncodeFault)

def RunError.message : RunError → String
  | unreadableFile name path fault => s!"Can't read file: {name}\n{fault.message path}"
  | undecodableFile name fault => s!"Can't read file: {name}\n{fault.message}"
  | undecodableInput fault => s!"Can't read stdin\n{fault.message}"
  | noInput => "No input provided. Use --help for usage."
  | undetected => "Can't detect input format. Use --from to specify."
  | conversion error => Text.escapeHalves (error.map ConversionError.message)
  | unwritable fault => fault.message
  | unserializable fault =>
      "Error serializing to JSON: UnicodeEncodeError: " ++ fault.message

end RequestForms.CommandLine
