import RequestForms.Json.Reader.Basic
import RequestForms.Text.Halves

/-!
# JSON strings

The characters between two quotation marks, raw or escaped. An escaped pair of halves makes one
character, and in the place of a half that stands alone a private one is read. To see which these
are, a text is read again with its halves respelled.
-/

namespace RequestForms.Json

def hexValue? (c : Char) : Option Nat :=
  if '0' ≤ c ∧ c ≤ '9' then some (c.toNat - 48)
  else if 'a' ≤ c ∧ c ≤ 'f' then some (c.toNat - 87)
  else if 'A' ≤ c ∧ c ≤ 'F' then some (c.toNat - 55)
  else none

def hexUnit? : List Char → Option (Nat × List Char)
  | a :: b :: c :: d :: e :: rest =>
      match hexValue? a, hexValue? b, hexValue? c, hexValue? d with
      | some a, some b, some c, some d => some (((a * 16 + b) * 16 + c) * 16 + d, e :: rest)
      | _, _, _, _ => none
  | _ => none

theorem length_of_hexUnit? {text rest : List Char} {unit : Nat}
    (h : hexUnit? text = some (unit, rest)) : rest.length < text.length := by
  unfold hexUnit? at h
  split at h
  · split at h
    · simp only [Option.some.injEq, Prod.mk.injEq] at h
      obtain ⟨-, rfl⟩ := h
      simp only [List.length_cons]
      omega
    · simp at h
  · simp at h

def isHighSurrogate (unit : Nat) : Bool := 0xd800 ≤ unit && unit < 0xdc00

def isLowSurrogate (unit : Nat) : Bool := 0xdc00 ≤ unit && unit < 0xe000

/-- The unit escaped at the front of a text, if it is the second half of a pair. -/
def lowUnit? : List Char → Option (Nat × List Char)
  | '\\' :: 'u' :: rest => (hexUnit? rest).filter fun found => isLowSurrogate found.1
  | _ => none

theorem length_of_lowUnit? {text rest : List Char} {unit : Nat}
    (h : lowUnit? text = some (unit, rest)) : rest.length < text.length := by
  unfold lowUnit? at h
  split at h
  · have := length_of_hexUnit? (Option.filter_eq_some_iff.1 h).1
    simp only [List.length_cons]
    omega
  · simp at h

def unescaped? : Char → Option Char
  | '"' => some '"'
  | '\\' => some '\\'
  | '/' => some '/'
  | 'b' => some '\x08'
  | 'f' => some '\x0c'
  | 'n' => some '\n'
  | 'r' => some '\r'
  | 't' => some '\t'
  | _ => none

/-- The character of an escaped unit with the text behind it. Half a pair that stands alone has its
first stand-in. -/
def characterOf (unit : Nat) (rest : List Char) : Char × List Char :=
  if isHighSurrogate unit then
    match lowUnit? rest with
    | some (low, behind) =>
        (Char.ofNat (0x10000 + (unit - 0xd800) * 0x400 + (low - 0xdc00)), behind)
    | none => ((Text.standIn unit).first, rest)
  else if isLowSurrogate unit then ((Text.standIn unit).first, rest)
  else (Char.ofNat unit, rest)

theorem length_characterOf_le (unit : Nat) (rest : List Char) :
    (characterOf unit rest).2.length ≤ rest.length := by
  unfold characterOf
  split
  · split
    · next h => exact Nat.le_of_lt (length_of_lowUnit? h)
    · exact Nat.le_refl _
  · split <;> exact Nat.le_refl _

/-- One character of a string, raw or escaped. The opening quote of the string is where a missing
end is reported. -/
def character (opening : List Char) : Reader Char
  | [] => .error (.malformed .closingQuote opening)
  | '\\' :: [] => .error (.malformed .closingQuote opening)
  | '\\' :: 'u' :: rest =>
      match h : hexUnit? rest with
      | none => .error (.malformed .unicodeEscape ('u' :: rest))
      | some (unit, behind) =>
          have := length_of_hexUnit? h
          have := length_characterOf_le unit behind
          .ok ⟨(characterOf unit behind).1, (characterOf unit behind).2, by
            simp only [List.length_cons]
            omega⟩
  | '\\' :: c :: rest =>
      match unescaped? c with
      | none => .error (.malformed .escape ('\\' :: c :: rest))
      | some found => .ok ⟨found, rest, by simp only [List.length_cons]; omega⟩
  | c :: rest =>
      if c.toNat < 0x20 then .error (.malformed .controlCharacter (c :: rest))
      else .ok ⟨c, rest, by simp⟩

def stringTail (opening : List Char) (text : List Char) :
    Except Stop (Taken (List Char) text) :=
  match text with
  | '"' :: rest => .ok ⟨[], rest, by simp⟩
  | text =>
      match character opening text with
      | .error stop => .error stop
      | .ok ⟨c, rest, _⟩ =>
          match stringTail opening rest with
          | .error stop => .error stop
          | .ok ⟨cs, behind, _⟩ => .ok ⟨c :: cs, behind, by omega⟩
termination_by text.length

/-- Whether a unit is half a pair whose other half does not follow or precede it. -/
def isAlone (unit : Nat) (rest : List Char) : Bool :=
  isLowSurrogate unit || isHighSurrogate unit && (lowUnit? rest).isNone

/-- A text with the second stand-in escaped in the place of each half that stands alone. Wherever a
backslash stands in JSON, it starts an escape. -/
def respelled (text : List Char) : List Char :=
  match text with
  | '\\' :: 'u' :: rest =>
      match h : hexUnit? rest with
      | none => '\\' :: 'u' :: respelled rest
      | some (unit, behind) =>
          let left := (characterOf unit behind).2
          have := length_of_hexUnit? h
          have := length_characterOf_le unit behind
          '\\' :: 'u' ::
            (if isAlone unit behind then Text.hex 'a' 4 (Text.standIn unit).second.toNat
              else rest.take (rest.length - left.length)) ++
            respelled left
  | '\\' :: c :: rest => '\\' :: c :: respelled rest
  | c :: rest => c :: respelled rest
  | [] => []
termination_by text.length
decreasing_by all_goals simp only [List.length_cons]; omega

end RequestForms.Json
