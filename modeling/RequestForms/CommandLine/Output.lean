import RequestForms.CommandLine.Invocation
import RequestForms.CommandLine.Options
import RequestForms.CommandLine.Styling
import RequestForms.Request.Document

/-!
# What a conversion prints

One request is printed as it is. Several are numbered, unless only the first of them is wanted. It
is printed piece by piece, and what holds half a pair cannot be printed, so that a run can fail when
other pieces are printed already.
-/

namespace RequestForms.CommandLine

inductive Rendering where
  | json
  | yaml
  | code (format : OutputFormat)
deriving DecidableEq

def Rendering.apply (request : Request) : Rendering → String
  | json => request.toJson
  | yaml => request.toYaml
  | code format => format.render request

/-- A request as it is printed, with the halves that it holds. As JSON it must not hold any. -/
def Rendering.applyTwofold (request : Twofold Request) :
    Rendering → Except RunError (Twofold String)
  | json => ((Request.plain request).map fun plain => .same (json.apply plain)).mapError
      .unserializable
  | yaml => .ok (request.map (yaml.apply ·))
  | code format => .ok (request.map ((code format).apply ·))

def Options.rendering (options : Options) (defaultTarget : Option String) :
    Except RunError Rendering :=
  if options.json then .ok .json
  else if options.yaml then .ok .yaml
  else
    let name := (orEnvironment options.target defaultTarget).getD "fetch"
    match OutputFormat.ofName? name with
    | some format => .ok (.code format)
    | none => .error (.conversion (.same (.unknownOutput name)))

def line (text : String) : String := text ++ "\n"

/-- A text that is printed at once, or why there is none. -/
abbrev Piece := Except RunError (Twofold String)

/-- Requests as they are printed, the first of them with a number. Among several, each has a
heading, and an empty line stands between them. -/
def listing (rendering : Rendering) (many : Bool) :
    (number : Nat) → List (Twofold Request) → List Piece
  | _, [] => []
  | number, request :: rest =>
      (if many then
          [.ok (.same (line (styled .heading s!"--- Request {number} ---"))),
            .ok (request.map fun request =>
              line (styled .dim (line s!"{request.method.name} {request.url}")))]
        else []) ++
      [(rendering.applyTwofold request).map (·.map line)] ++
      (if rest.isEmpty then [] else [.ok (.same (line ""))]) ++
      listing rendering many (number + 1) rest

/-- What is printed for some requests: all of them, or the first one with a remark on the
others. -/
def conversionOutput (rendering : Rendering) (format : InputFormat) (all : Bool)
    (requests : List (Twofold Request)) : List Piece :=
  if format = .postman ∧ !all ∧ 1 < requests.length then
    .ok (.same (line (styled .yellow (line
      (s!"Found {requests.length} requests. Use --all to convert all, " ++
        "or showing first only."))))) ::
    listing rendering false 1 (requests.take 1)
  else listing rendering (1 < requests.length) 1 requests

/-- A piece as it is printed. The places of halves are counted in what would be seen. -/
def printPiece (onTerminal : Bool) (piece : Piece) : Except RunError String :=
  match piece with
  | .error error => .error error
  | .ok text =>
      match Text.plain text with
      | .ok plain => .ok (shown onTerminal plain)
      | .error fault =>
          let before := (shown onTerminal (String.ofList fault.before)).toList
          .error (.unwritable { fault with before })

/-- What is printed up to the first piece that cannot be printed, and why that one cannot. -/
def print (onTerminal : Bool) : List Piece → String × Option RunError
  | [] => ("", none)
  | piece :: rest =>
      match printPiece onTerminal piece with
      | .error error => ("", some error)
      | .ok text =>
          let (more, error) := print onTerminal rest
          (text ++ more, error)

end RequestForms.CommandLine
