import RequestForms.Text.Search

/-!
# Paths

A name leads from a directory to a place. Empty parts and dots do not count, and two dots go up, but
never above the root.
-/

namespace RequestForms.CommandLine

/-- A place: the parts of its name below a root, whose own name is empty or stands for a place. -/
structure Path where
  root : List Char
  below : List (List Char)
deriving DecidableEq

namespace Path

def parts (s : List Char) : List (List Char) :=
  match h : Text.splitFirst? '/' s with
  | none => [s]
  | some (before, behind) =>
      have : behind.length < s.length := by
        rw [(Text.eq_append_of_splitFirst? h).1, List.length_append, List.length_cons]
        omega
      before :: parts behind
termination_by s.length

/-- Goes one part further down, or up. -/
def enter (path : Path) (part : List Char) : Path :=
  if part = [] ∨ part = ['.'] then path
  else if part = ['.', '.'] then { path with below := path.below.dropLast }
  else { path with below := path.below ++ [part] }

def ofChars (s : List Char) : Path :=
  match parts s with
  | [] => ⟨[], []⟩
  | root :: rest => rest.foldl enter ⟨root, []⟩

/-- The place of a name in a directory. A name that starts with a slash is full by itself. -/
def resolve (directory name : String) : Path :=
  if "/".toList.isPrefixOf name.toList then ofChars name.toList
  else ofChars (directory.toList ++ '/' :: name.toList)

def name (path : Path) : String :=
  if path.root = [] ∧ path.below = [] then "/"
  else String.ofList (['/'].intercalate (path.root :: path.below))

def leadsTo (path other : Path) : Bool :=
  path.root = other.root && path.below.isPrefixOf other.below

end Path

end RequestForms.CommandLine
