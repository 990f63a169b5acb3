import RequestForms.Text.Quoted
import RequestForms.Yaml.Implicit

/-!
# Texts in a YAML document

A text is written plain if a reader takes it for itself, in single quotes if its characters can
stand as they are, and in double quotes otherwise. A long line is folded at a space.
-/

namespace RequestForms.Yaml

inductive Style where
  | plain
  | single
  | double
deriving DecidableEq, Repr

def isBreak (c : Char) : Bool := c = '\n' || c = '\u0085' || c = '\u2028' || c = '\u2029'

def isSeparator (c : Char) : Bool :=
  c = '\x00' || c = ' ' || c = '\t' || c = '\r' || isBreak c

def isVisible (c : Char) : Bool := ' ' ≤ c && c ≤ '~'

def isSeparated : List Char → Bool
  | [] => true
  | c :: _ => isSeparator c

/-- Characters that mean something at the start of a text. -/
def indicators : List Char :=
  ['#', ',', '[', ']', '\x7b', '\x7d', '&', '*', '!', '|', '>', '\'', '"', '%', '@', '\x60']

def startsWithIndicator (s : List Char) : Bool :=
  "---".toList.isPrefixOf s || "...".toList.isPrefixOf s ||
    match s with
    | [] => false
    | c :: rest =>
        indicators.contains c || ((c = '?' || c = ':' || c = '-') && isSeparated rest)

/-- Whether a text holds the end of a key or the start of a comment. -/
def holdsIndicator (separated : Bool) : List Char → Bool
  | [] => false
  | c :: rest =>
      (c = ':' && isSeparated rest) || (c = '#' && separated) ||
        holdsIndicator (isSeparator c) rest

def isPlain (s : List Char) : Bool :=
  s.all isVisible && s.head? != some ' ' && s.getLast? != some ' ' && !startsWithIndicator s &&
    !holdsIndicator false s && !isImplicit s

def hasSpaceAtBreak : List Char → Bool
  | ' ' :: '\n' :: _ => true
  | '\n' :: ' ' :: _ => true
  | _ :: rest => hasSpaceAtBreak rest
  | [] => false

def styleOf (s : List Char) : Style :=
  if isPlain s then .plain
  else if s.all (fun c => isVisible c || c = '\n') && !hasSpaceAtBreak s then .single
  else .double

/-- The column behind which a line is folded. -/
def width : Nat := 80

def newLine (indent : Nat) : List Char := '\n' :: List.replicate indent ' '

/-- Where continued lines start, if a text may be continued. -/
abbrev Folding := Option Nat

/-- A text outside double quotes, from a column on. A single space inside the text behind the width
becomes a line break, and line breaks of the text are doubled. -/
def folded (folding : Folding) (mark : Char → List Char) (atStart : Bool) (column : Nat)
    (s : List Char) : List Char :=
  match s with
  | [] => []
  | ' ' :: rest =>
      let run := rest.takeWhile (· = ' ')
      let behind := rest.dropWhile (· = ' ')
      match folding with
      | some indent =>
          if run = [] ∧ behind ≠ [] ∧ !atStart ∧ width < column then
            newLine indent ++ folded folding mark false indent behind
          else
            ' ' :: run ++ folded folding mark false (column + 1 + run.length) behind
      | none => ' ' :: run ++ folded folding mark false (column + 1 + run.length) behind
  | '\n' :: rest =>
      let run := rest.takeWhile (· = '\n')
      let indent := folding.getD 0
      '\n' :: run ++ newLine indent ++
        folded folding mark false indent (rest.dropWhile (· = '\n'))
  | c :: rest => mark c ++ folded folding mark false (column + (mark c).length) rest
termination_by s.length
decreasing_by
  · exact Nat.lt_succ_of_le (List.dropWhile_sublist _).length_le
  · exact Nat.lt_succ_of_le (List.dropWhile_sublist _).length_le
  · exact Nat.lt_succ_of_le (List.dropWhile_sublist _).length_le
  · exact Nat.lt_succ_of_le (List.dropWhile_sublist _).length_le
  · simp

def singleQuoted (c : Char) : List Char := if c = '\'' then ['\'', '\''] else [c]

def escapeLetters : List (Char × Char) :=
  [('\x00', '0'), ('\x07', 'a'), ('\x08', 'b'), ('\t', 't'), ('\n', 'n'), ('\x0b', 'v'),
    ('\x0c', 'f'), ('\r', 'r'), ('\x1b', 'e'), ('"', '"'), ('\\', '\\'), ('\u0085', 'N'),
    ('\u00a0', '_'), ('\u2028', 'L'), ('\u2029', 'P')]

def escape? (c : Char) : Option (List Char) :=
  match escapeLetters.lookup c with
  | some letter => some ['\\', letter]
  | none => if isVisible c then none else some (Text.codePointEscape 'A' c)

/-- An escape before a space at the start of a continued line. -/
def spaceGuard (next : List Char) : List Char := if next.head? = some ' ' then ['\\'] else []

/-- A line break that does not count, before what follows. -/
def continuation (indent : Nat) (next : List Char) : List Char :=
  '\\' :: newLine indent ++ spaceGuard next

/-- A text between double quotes, from a column on. A line is continued behind the width before a
space, and before or behind a character next to an escape. -/
def escaped (folding : Folding) (atStart afterEscape : Bool) (column : Nat) :
    List Char → List Char
  | [] => []
  | c :: rest =>
      let inside := !atStart && !rest.isEmpty
      match escape? c, folding with
      | some escape, none => escape ++ escaped folding false true (column + escape.length) rest
      | some escape, some indent =>
          if inside ∧ width + 1 < column + escape.length then
            escape ++ continuation indent rest ++
              escaped folding false true (indent + (spaceGuard rest).length) rest
          else escape ++ escaped folding false true (column + escape.length) rest
      | none, none => c :: escaped folding false false (column + 1) rest
      | none, some indent =>
          if inside ∧ (c = ' ' ∨ afterEscape) ∧ width < column then
            continuation indent (c :: rest) ++
              c :: escaped folding false false (indent + (spaceGuard (c :: rest)).length + 1) rest
          else c :: escaped folding false false (column + 1) rest

def scalar (folding : Folding) (column : Nat) (s : List Char) : List Char :=
  match styleOf s with
  | .plain => folded folding (fun c => [c]) true column s
  | .single => '\'' :: folded folding singleQuoted true (column + 1) s ++ ['\'']
  | .double => '"' :: escaped folding true false (column + 1) s ++ ['"']

/-! ## Entries of a mapping

A short key stands before its colon, and any other key on a line of its own behind a question
mark. -/

/-- The length from which on a key needs a line of its own. -/
def maxKeyLength : Nat := 123

def isSimpleKey (key : List Char) : Bool :=
  !key.isEmpty && key.length < maxKeyLength && !key.any isBreak

def keyPart (indent : Nat) (key : List Char) : List Char :=
  let blanks := List.replicate indent ' '
  if isSimpleKey key then blanks ++ scalar none indent key ++ [':']
  else blanks ++ '?' :: ' ' :: scalar (some (indent + 2)) (indent + 2) key ++
    '\n' :: blanks ++ [':']

def columnBehind (indent : Nat) (key : List Char) : Nat :=
  if isSimpleKey key then (keyPart indent key).length else indent + 1

def textEntry (indent : Nat) (key value : List Char) : List Char :=
  keyPart indent key ++ ' ' :: scalar (some (indent + 2)) (columnBehind indent key + 1) value

end RequestForms.Yaml
