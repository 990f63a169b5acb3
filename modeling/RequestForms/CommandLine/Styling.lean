/-!
# Styled text

Escape sequences colour a text on a terminal. Elsewhere all of them are taken out.
-/

namespace RequestForms.CommandLine

inductive Styling where
  | red
  | yellow
  | dim
  | heading
deriving DecidableEq, Repr

def Styling.codes : Styling → String
  | red => "\x1b[31m"
  | yellow => "\x1b[33m"
  | dim => "\x1b[2m"
  | heading => "\x1b[36m\x1b[1m"

def styled (styling : Styling) (text : String) : String := styling.codes ++ text ++ "\x1b[0m"

/-- A character of the parameters of an escape sequence. -/
def isParameter (c : Char) : Bool := '0' ≤ c && c ≤ '?'

/-- A character between the parameters and the last character of an escape sequence. -/
def isIntermediate (c : Char) : Bool := ' ' ≤ c && c ≤ '/'

def isFinal (c : Char) : Bool := '@' ≤ c && c ≤ '~'

/-- What follows an escape sequence behind its opening. -/
def behindSequence? (s : List Char) : Option (List Char) :=
  match (s.dropWhile isParameter).dropWhile isIntermediate with
  | c :: rest => if isFinal c then some rest else none
  | [] => none

theorem length_of_behindSequence? {s rest : List Char} (h : behindSequence? s = some rest) :
    rest.length < s.length := by
  unfold behindSequence? at h
  split at h
  · next c tail hs =>
      split at h
      · obtain rfl := Option.some.inj h
        have h₁ := (List.dropWhile_sublist isParameter (l := s)).length_le
        have h₂ := (List.dropWhile_sublist isIntermediate (l := s.dropWhile isParameter)).length_le
        rw [hs, List.length_cons] at h₂
        omega
      · simp at h
  · simp at h

def withoutSequences (s : List Char) : List Char :=
  match s with
  | [] => []
  | '\x1b' :: '[' :: rest =>
      match h : behindSequence? rest with
      | some behind =>
          have := length_of_behindSequence? h
          withoutSequences behind
      | none => '\x1b' :: withoutSequences ('[' :: rest)
  | c :: rest => c :: withoutSequences rest
termination_by s.length

/-- A text as it reaches a terminal, or anything else. -/
def shown (onTerminal : Bool) (text : String) : String :=
  if onTerminal then text else String.ofList (withoutSequences text.toList)

end RequestForms.CommandLine
