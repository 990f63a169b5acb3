import RequestForms.Headers
import RequestForms.Request.Complaint

/-!
# Checked values

The parts of a value are checked side by side, so that every part that does not fit is complained
about.
-/

namespace RequestForms

/-- A value, or all complaints about what it was to be made of. -/
inductive Checked (α : Type) where
  | accepted (value : α)
  | refused (complaints : List Complaint)

namespace Checked

variable {α β : Type}

def map (f : α → β) : Checked α → Checked β
  | accepted value => accepted (f value)
  | refused complaints => refused complaints

/-- Applies a checked function to a checked value, with the complaints about both. -/
def seq (f : Checked (α → β)) (x : Unit → Checked α) : Checked β :=
  match f, x () with
  | accepted f, accepted value => accepted (f value)
  | accepted _, refused complaints => refused complaints
  | refused complaints, accepted _ => refused complaints
  | refused first, refused second => refused (first ++ second)

instance : Applicative Checked where
  pure := accepted
  map := map
  seq := seq

def refuse (path : List String) (mismatch : Mismatch) (given : Json) : Checked α :=
  refused [⟨path, mismatch, given⟩]

def text (path : List String) : Json → Checked String
  | .string text => accepted text
  | given => refuse path .notText given

def optionalText (path : List String) : Json → Checked (Option String)
  | .null => accepted none
  | given => some <$> text path given

def onWords : List String := ["1", "on", "t", "true", "y", "yes"]

def offWords : List String := ["0", "off", "f", "false", "n", "no"]

/-- The first whole number that a word of 64 bits does not hold. -/
def wordBound : Int := 0x8000000000000000

/-- The whole number that a value is, if a word of 64 bits holds it. A double has to lie strictly
between the bounds, since it stands for its neighbourhood there. -/
def wordNumber? : Json → Option Int
  | .int n => if -wordBound ≤ n ∧ n < wordBound then some n else none
  | .double x => x.toInt?.filter fun n => -wordBound < n ∧ n < wordBound
  | _ => none

def flagOfNumber? (n : Int) : Option Bool :=
  if n = 0 then some false else if n = 1 then some true else none

def flagOfWord? (word : String) : Option Bool :=
  let word := word.map Char.toLower
  if onWords.contains word then some true
  else if offWords.contains word then some false
  else none

/-- A flag: a truth value, a number or a word. A number or a word that means no flag could still
have meant one, unlike any other value. -/
def flag (path : List String) (given : Json) : Checked Bool :=
  let meant : Option Bool → Checked Bool
    | some value => accepted value
    | none => refuse path .notFlagWord given
  match given with
  | .bool value => accepted value
  | .string word => meant (flagOfWord? word)
  | given =>
      match wordNumber? given with
      | some n => meant (flagOfNumber? n)
      | none => refuse path .notFlag given

def texts (path : List String) : List (String × Json) → Checked (List (String × String))
  | [] => pure []
  | (name, value) :: rest =>
      (fun text more => (name, text) :: more) <$> text (path ++ [name]) value <*>
        texts path rest

def headers (path : List String) : Json → Checked Headers
  | .object members => Headers.ofPairs <$> texts path members
  | given => refuse path .notMapping given

end Checked

end RequestForms
