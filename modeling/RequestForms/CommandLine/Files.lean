import RequestForms.CommandLine.Path
import RequestForms.Text.Quoted

/-!
# Files by name

A file is looked for part by part from the root on, and the first part that cannot be passed says
why it is not read.
-/

namespace RequestForms.CommandLine

inductive FileFault where
  | missing
  | denied
  | notDirectory
  | directory
  | nameTooLong
  | other (code : Nat) (text : String)
deriving DecidableEq, Repr

namespace FileFault

def code : FileFault → Nat
  | missing => 2
  | denied => 13
  | notDirectory => 20
  | directory => 21
  | nameTooLong => 36
  | other code _ => code

def text : FileFault → String
  | missing => "No such file or directory"
  | denied => "Permission denied"
  | notDirectory => "Not a directory"
  | directory => "Is a directory"
  | nameTooLong => "File name too long"
  | other _ text => text

def ofCode (code : Nat) (text : String) : FileFault :=
  match [missing, denied, notDirectory, directory, nameTooLong].find? (·.code = code) with
  | some fault => fault
  | none => other code text

def message (fault : FileFault) (path : Path) : String :=
  s!"[Errno {fault.code}] {fault.text}: {Text.quoted path.name}"

end FileFault

/-- Files by their places, with the directory that names start from. -/
structure Files where
  directory : Path
  contents : List (Path × List UInt8)

namespace Files

def isDirectory (files : Files) (path : Path) : Bool :=
  path.below.isEmpty || path.leadsTo files.directory ||
    files.contents.any fun file => path.leadsTo file.1

def maxPartSize : Nat := 255

def maxNameSize : Nat := 4095

/-- Goes on from a directory. Only there does the length of the next part count. -/
def walk (files : Files) (path : Path) : List (List Char) → Except FileFault (List UInt8)
  | [] => .error .directory
  | part :: rest =>
      let next : Path := { path with below := path.below ++ [part] }
      if maxPartSize < Text.byteCount part then .error .nameTooLong
      else
        match files.contents.lookup next with
        | some bytes => if rest.isEmpty then .ok bytes else .error .notDirectory
        | none => if files.isDirectory next then files.walk next rest else .error .missing

def read (files : Files) (path : Path) : Except FileFault (List UInt8) :=
  if maxNameSize < path.name.utf8ByteSize then .error .nameTooLong
  else files.walk ⟨path.root, []⟩ path.below

end Files

end RequestForms.CommandLine
