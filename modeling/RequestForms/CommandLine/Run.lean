import RequestForms.CommandLine.Input
import RequestForms.CommandLine.Options
import RequestForms.CommandLine.Output

/-!
# A run of the program

What the program answers is a function of its arguments, its environment and the bytes that it can
read.
-/

namespace RequestForms.CommandLine

def succeed (invocation : Invocation) (output error : String) : Outcome :=
  ⟨0, output, shown invocation.errorIsTerminal error⟩

/-- A failed run, with what was printed before it failed. -/
def fail (invocation : Invocation) (output notes : String) (error : RunError) : Outcome :=
  ⟨1, output, shown invocation.errorIsTerminal
    (notes ++ line (styled .red "Error:" ++ " " ++ error.message))⟩

def plan (invocation : Invocation) (options : Options) :
    Except RunError (String × InputFormat × Rendering) := do
  let text ← sourceText invocation options
  let named := orEnvironment options.source invocation.defaultSource
  let format ← sourceFormat named text
  let rendering ← options.rendering invocation.defaultTarget
  return (text, format, rendering)

def convert (invocation : Invocation) (options : Options) : Outcome :=
  match plan invocation options with
  | .error error => fail invocation "" "" error
  | .ok (text, format, rendering) =>
      let note := fun text => if options.verbose then line text else ""
      let found := note s!"Input format: {format.name}"
      match format.readTwofold text with
      | .error error => fail invocation "" found (.conversion error)
      | .ok requests =>
          let notes := found ++ note s!"Parsed {requests.length} request(s)."
          match print invocation.outputIsTerminal
            (conversionOutput rendering format options.all requests) with
          | (output, none) => succeed invocation output notes
          | (output, some error) => fail invocation output notes error

def run (invocation : Invocation) : Outcome :=
  match Options.ofArguments invocation.args with
  | .error error => ⟨2, "", shown invocation.errorIsTerminal (line ("Error: " ++ error.message))⟩
  | .ok options =>
      match options.notice with
      | some .version => succeed invocation (shown invocation.outputIsTerminal versionText) ""
      | some .help => succeed invocation (shown invocation.outputIsTerminal helpText) ""
      | none => convert invocation options

def Invocation.requestedPath? (invocation : Invocation) : Option Path :=
  match Options.ofArguments invocation.args with
  | .ok { notice := none, file := some name, .. } =>
      if name = "" then none else some (Path.resolve invocation.directory name)
  | _ => none

def Invocation.readsInput (invocation : Invocation) : Bool :=
  match Options.ofArguments invocation.args with
  | .ok options =>
      options.notice.isNone &&
        match givenText invocation options with
        | .ok "" => true
        | _ => false
  | .error _ => false

end RequestForms.CommandLine
