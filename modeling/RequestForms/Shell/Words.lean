/-!
# Shell words

A command line is cut into words at the spaces outside quotes. Single quotes keep everything up to
the next one, double quotes keep spaces and single quotes, and a backslash outside single quotes
keeps the character behind it. An empty word is no word, and what is left open at the end is closed
there.
-/

namespace RequestForms.Shell

inductive Mode where
  | bare
  | single
  | double
  | bareEscape
  | doubleEscape
deriving DecidableEq, Repr

/-- What becomes of a character: it belongs to the word, only steers the scan, or ends the word. -/
inductive Role where
  | kept
  | dropped
  | separator
deriving DecidableEq, Repr

def step : Mode → Char → Mode × Role
  | .bare, c =>
      if c = '\\' then (.bareEscape, .dropped)
      else if c = '\'' then (.single, .dropped)
      else if c = '"' then (.double, .dropped)
      else if c = ' ' then (.bare, .separator)
      else (.bare, .kept)
  | .single, c => if c = '\'' then (.bare, .dropped) else (.single, .kept)
  | .double, c =>
      if c = '\\' then (.doubleEscape, .dropped)
      else if c = '"' then (.bare, .dropped)
      else (.double, .kept)
  | .bareEscape, _ => (.bare, .kept)
  | .doubleEscape, _ => (.double, .kept)

/-- What a scan finds: the rest of the word it is in, and the words behind that. -/
structure Scan where
  pending : List Char
  later : List (List Char)

namespace Scan

def words (scan : Scan) : List (List Char) :=
  if scan.pending = [] then scan.later else scan.pending :: scan.later

end Scan

def scan : Mode → List Char → Scan
  | _, [] => ⟨[], []⟩
  | mode, c :: rest =>
      let behind := scan (step mode c).1 rest
      match (step mode c).2 with
      | .kept => ⟨c :: behind.pending, behind.later⟩
      | .dropped => behind
      | .separator => ⟨[], behind.words⟩

def split (text : List Char) : List (List Char) := (scan .bare text).words

def words (text : String) : List String := (split text.toList).map String.ofList

/-! ## Quoting

A single quote inside a word closes the quotes, stands behind a backslash and opens them again. -/

/-- The characters of a single-quoted word behind its opening quote. -/
def quotedTail : List Char → List Char
  | [] => ['\'']
  | c :: rest => if c = '\'' then '\'' :: '\\' :: '\'' :: '\'' :: quotedTail rest
      else c :: quotedTail rest

def quoteChars (text : List Char) : List Char := '\'' :: quotedTail text

def quote (text : String) : String := String.ofList (quoteChars text.toList)

end RequestForms.Shell
