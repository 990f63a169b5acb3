import RequestForms.Text.Blank
import RequestForms.Text.Casing.Tables

/-!
# Upper and lower case

Full case mappings: one character may become several (`ß` becomes `SS`). Only the capital sigma
looks at its neighbours, since its lower case at a word's end is `ς`.
-/

namespace RequestForms.Text

namespace Casing

/-- The image of a code point in the first run that holds it. -/
def findRun (n : Nat) : List (Nat × Nat × Nat × Nat) → Option Nat
  | [] => none
  | (first, last, step, image) :: rest =>
      if first ≤ n && n ≤ last && (n - first) % step == 0 then some (image + (n - first))
      else findRun n rest

/-- The characters that a character becomes, itself where no table lists it. -/
def mapped (runs : List (Nat × Nat × Nat × Nat)) (expansions : List (Nat × List Nat))
    (c : Char) : List Char :=
  match findRun c.toNat runs with
  | some n => [Char.ofNat n]
  | none =>
      match expansions.lookup c.toNat with
      | some ns => ns.map Char.ofNat
      | none => [c]

/-- Whether the nearest character that casing does not look through has a case. -/
def nearestIsCased (s : List Char) : Bool :=
  match s.dropWhile (fun c => inRanges c.toNat ignorableRanges) with
  | [] => false
  | c :: _ => inRanges c.toNat casedRanges

end Casing

open Casing

def upperChar (c : Char) : List Char :=
  if c.toNat < 0x80 then
    if 'a' ≤ c ∧ c ≤ 'z' then [Char.ofNat (c.toNat - 32)] else [c]
  else mapped upperRuns upperExpansions c

/-- The lower case of a character away from a word's end. -/
def lowerChar (c : Char) : List Char :=
  if c.toNat < 0x80 then
    if 'A' ≤ c ∧ c ≤ 'Z' then [Char.ofNat (c.toNat + 32)] else [c]
  else mapped lowerRuns lowerExpansions c

def upper (s : List Char) : List Char := s.flatMap upperChar

/-- Lower case behind the given characters, the nearest first. A capital sigma is final after a
cased character when none follows it. -/
def lowerAfter (before : List Char) : List Char → List Char
  | [] => []
  | c :: rest =>
      let image :=
        if c = 'Σ' then
          if nearestIsCased before && !nearestIsCased rest then ['ς'] else ['σ']
        else lowerChar c
      image ++ lowerAfter (c :: before) rest

def lower (s : List Char) : List Char := lowerAfter [] s

def toUpper (s : String) : String := String.ofList (upper s.toList)

def toLower (s : String) : String := String.ofList (lower s.toList)

def sameIgnoringCase (s t : String) : Bool := toLower s == toLower t

end RequestForms.Text
