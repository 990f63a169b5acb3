import RequestForms.Text.Quoted
import RequestForms.Text.Search

/-!
# Options on the command line

Options and input words may be mixed. What looks like an option and is none is an input word, so
that a whole command can be given unquoted.
-/

namespace RequestForms.CommandLine

inductive Switch where
  | json
  | yaml
  | all
  | verbose
  | version
  | help
deriving DecidableEq, Repr

inductive Setting where
  | target
  | source
  | file
deriving DecidableEq, Repr

inductive UsageError where
  | takesNoValue (name : String)
  | needsValue (name : String)
deriving DecidableEq, Repr

def UsageError.message : UsageError → String
  | takesNoValue name => s!"Option {Text.quoted name} does not take a value."
  | needsValue name => s!"Option {Text.quoted name} requires an argument."

def switchOf? : String → Option Switch
  | "--json" => some .json
  | "--yaml" => some .yaml
  | "--all" => some .all
  | "--verbose" => some .verbose
  | "--version" => some .version
  | "--help" => some .help
  | _ => none

def settingOf? : String → Option Setting
  | "--to" => some .target
  | "--from" => some .source
  | "--file" => some .file
  | _ => none

/-- What the command line asks to print instead of a conversion. -/
inductive Notice where
  | version
  | help
deriving DecidableEq, Repr

structure Options where
  target : Option String := none
  source : Option String := none
  file : Option String := none
  json : Bool := false
  yaml : Bool := false
  all : Bool := false
  verbose : Bool := false
  notice : Option Notice := none
  words : List String := []
deriving DecidableEq, Inhabited

namespace Options

/-- Turns on an option that stands alone. Of the notices the first counts. -/
def turnOn (options : Options) : Switch → Options
  | .json => { options with json := true }
  | .yaml => { options with yaml := true }
  | .all => { options with all := true }
  | .verbose => { options with verbose := true }
  | .version => { options with notice := options.notice.or (some .version) }
  | .help => { options with notice := options.notice.or (some .help) }

/-- Gives an option its value. The last one counts. -/
def assign (options : Options) (value : String) : Setting → Options
  | .target => { options with target := some value }
  | .source => { options with source := some value }
  | .file => { options with file := some value }

def addWords (options : Options) (words : List String) : Options :=
  { options with words := options.words ++ words }

end Options

/-- The value of an option, or that of the environment, which counts only if it is not empty. -/
def orEnvironment (option environment : Option String) : Option String :=
  option.or (environment.filter (· ≠ ""))

/-- One-letter options behind a dash: those that stand alone, the letters that are none, and what
follows the letter of the option with a value. -/
structure Cluster where
  switches : List Switch
  unknown : List Char
  file : Option (List Char)
deriving DecidableEq

def switchOfLetter? : Char → Option Switch
  | 'v' => some .version
  | 'h' => some .help
  | _ => none

def Cluster.ofLetters : List Char → Cluster
  | [] => ⟨[], [], none⟩
  | 'f' :: rest => ⟨[], [], some rest⟩
  | c :: rest =>
      let behind := ofLetters rest
      match switchOfLetter? c with
      | some switch => { behind with switches := switch :: behind.switches }
      | none => { behind with unknown := c :: behind.unknown }

/-- Applies the options of a cluster that stand alone, and keeps its other letters as a word. -/
def Options.addCluster (options : Options) (cluster : Cluster) : Options :=
  let options := cluster.switches.foldl Options.turnOn options
  if cluster.unknown.isEmpty then options
  else options.addWords [String.ofList ('-' :: cluster.unknown)]

def splitOption (arg : String) : String × Option String :=
  match Text.splitFirst? '=' arg.toList with
  | none => (arg, none)
  | some (name, value) => (String.ofList name, some (String.ofList value))

inductive Argument where
  | word (text : String)
  | endOfOptions
  | switch (flag : Switch)
  | setting (name : String) (option : Setting) (value : Option String)
  | cluster (letters : Cluster)
  | wrong (error : UsageError)
deriving DecidableEq

def Argument.ofString (arg : String) : Argument :=
  match arg.toList with
  | ['-', '-'] => .endOfOptions
  | '-' :: c :: letters =>
      let (name, value) := splitOption arg
      match settingOf? name, switchOf? name with
      | some option, _ => .setting name option value
      | none, some flag => if value.isSome then .wrong (.takesNoValue name) else .switch flag
      | none, none => if c = '-' then .word arg else .cluster (.ofLetters (c :: letters))
  | _ => .word arg

def Options.extend (options : Options) : List String → Except UsageError Options
  | [] => .ok options
  | arg :: rest =>
      match Argument.ofString arg with
      | .word text => (options.addWords [text]).extend rest
      | .endOfOptions => .ok (options.addWords rest)
      | .switch flag => (options.turnOn flag).extend rest
      | .setting _ option (some value) => (options.assign value option).extend rest
      | .setting name option none =>
          match rest with
          | [] => .error (.needsValue name)
          | value :: rest => (options.assign value option).extend rest
      | .cluster letters =>
          match letters.file with
          | none => (options.addCluster letters).extend rest
          | some (c :: value) =>
              ((options.addCluster letters).assign (String.ofList (c :: value)) .file).extend rest
          | some [] =>
              match rest with
              | [] => .error (.needsValue "-f")
              | value :: rest => ((options.addCluster letters).assign value .file).extend rest
      | .wrong error => .error error

def Options.ofArguments (args : List String) : Except UsageError Options :=
  ({} : Options).extend args

/-! ## Notices of the program itself -/

def versionText : String := "curlgen v1.0.0\n"

def helpText : String := "\n".intercalate [
  "Usage: curlgen [OPTIONS] [INPUT_PARTS]...",
  "",
  "  Convert between cURL, fetch, and axios code.",
  "",
  "  INPUT is a curl command, a fetch/axios snippet or a Postman collection. It may",
  "  also come from --file or be piped on stdin.",
  "",
  "Options:",
  "  --to TEXT        Output format: fetch, axios, curl.  [default: fetch]",
  "  --from TEXT      Input format: curl, fetch, axios, postman (auto-detected).",
  "  -f, --file TEXT  Read input from file.",
  "  --json           Output the parsed request as JSON.",
  "  --yaml           Output the parsed request as YAML.",
  "  --all            For Postman: convert all requests.",
  "  --verbose        Report the detected format on stderr.",
  "  -v, --version    Show the version and exit.",
  "  -h, --help       Show this message and exit.",
  ""]

end RequestForms.CommandLine
