import RequestForms.CommandLine.Invocation
import RequestForms.CommandLine.Options

/-!
# The text to convert

It comes from a file, from the input words or from standard input, in this order, and its form is
either named or recognised.
-/

namespace RequestForms.CommandLine

def inputText (bytes : List UInt8) : Except Text.DecodeFault String :=
  (Text.decode bytes).map fun cs => String.ofList (Text.strip (Text.unifyLineEnds cs))

def fileText (invocation : Invocation) (name : String) : Except RunError String :=
  let path := Path.resolve invocation.directory name
  match invocation.bytesOf path with
  | .error fault => .error (.unreadableFile name path fault)
  | .ok bytes => (inputText bytes).mapError (.undecodableFile name)

def givenText (invocation : Invocation) (options : Options) : Except RunError String :=
  match options.file with
  | none | some "" => .ok (" ".intercalate options.words)
  | some name => fileText invocation name

def pipedText (invocation : Invocation) : Except RunError String :=
  match inputText invocation.input with
  | .error fault => .error (.undecodableInput fault)
  | .ok "" => .error .noInput
  | .ok text => .ok text

def sourceText (invocation : Invocation) (options : Options) : Except RunError String :=
  match givenText invocation options with
  | .ok "" => pipedText invocation
  | given => given

/-- The form of a text: the one that is named, or the one that it seems to have. -/
def sourceFormat (named : Option String) (text : String) : Except RunError InputFormat :=
  match named with
  | none | some "" => ((InputFormat.detect? text).map .ok).getD (.error .undetected)
  | some "unknown" => .error .undetected
  | some name =>
      match InputFormat.ofName? name with
      | some format => .ok format
      | none => .error (.conversion (.same (.unknownInput name)))

end RequestForms.CommandLine
