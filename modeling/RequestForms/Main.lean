import RequestForms.CommandLine.Run

/-!
# The program

Collects what a run depends on, and hands on what it leaves behind.
-/

open RequestForms.CommandLine

/-- The number of an error, which may be given with either sign. -/
def errorNumber (code : UInt32) : Nat :=
  if code < 0x80000000 then code.toNat else (0 - code).toNat

def faultOfError : IO.Error → FileFault
  | .noFileOrDirectory _ code text | .permissionDenied _ code text
  | .inappropriateType _ code text | .invalidArgument _ code text
  | .resourceExhausted _ code text | .interrupted _ code text
  | .otherError code text => .ofCode (errorNumber code) text
  | error => .other 5 (toString error)

def readPath (path : Path) : IO (Except FileFault (List UInt8)) := do
  try
    return .ok (← IO.FS.readBinFile path.name).toList
  catch error =>
    return .error (faultOfError error)

def readInput : IO (List UInt8) := do
  let input ← IO.getStdin
  if ← input.isTty then return []
  return (← input.readBinToEnd).toList

def main (args : List String) : IO UInt32 := do
  let directory := (← IO.currentDir).toString
  let invocation : Invocation := {
    args
    directory
    defaultTarget := ← IO.getEnv "CURLGEN_TO"
    defaultSource := ← IO.getEnv "CURLGEN_FROM"
    bytesOf := fun _ => .error .missing
    outputIsTerminal := ← (← IO.getStdout).isTty
    errorIsTerminal := ← (← IO.getStderr).isTty }
  let contents ←
    match invocation.requestedPath? with
    | some path => readPath path
    | none => pure (.error .missing)
  let invocation := { invocation with bytesOf := fun _ => contents }
  let input ← if invocation.readsInput then readInput else pure []
  let outcome := run { invocation with input }
  IO.print outcome.output
  IO.eprint outcome.error
  return outcome.exit.toUInt32
