/-!
# Why a text is no JSON value
-/

namespace RequestForms.Json

/-- What was looked for, or is wrong, at a place of a text. -/
inductive Fault where
  | value
  | memberName
  | colon
  | comma
  | closingQuote
  | controlCharacter
  | escape
  | unicodeEscape
  | endOfText
  | byteOrderMark
deriving DecidableEq, Repr

inductive Container where
  | array
  | object
deriving DecidableEq, Repr

/-- A place in a text: the line and the column from one on, and the number of characters before
it. -/
structure Place where
  line : Nat
  column : Nat
  offset : Nat
deriving DecidableEq, Repr

def Place.behind (before : List Char) : Place where
  line := before.count '\n' + 1
  column := (before.reverse.takeWhile (· ≠ '\n')).length + 1
  offset := before.length

inductive Failure where
  | malformed (fault : Fault) (place : Place)
  | integerTooLong (digits : Nat)
  | tooDeep (container : Container)
deriving DecidableEq, Repr

def maxDigits : Nat := 4300

def Fault.message : Fault → String
  | value => "Expecting value"
  | memberName => "Expecting property name enclosed in double quotes"
  | colon => "Expecting ':' delimiter"
  | comma => "Expecting ',' delimiter"
  | closingQuote => "Unterminated string starting at"
  | controlCharacter => "Invalid control character at"
  | escape => "Invalid \\escape"
  | unicodeEscape => "Invalid \\uXXXX escape"
  | endOfText => "Extra data"
  | byteOrderMark => "Unexpected UTF-8 BOM (decode using utf-8-sig)"

def Place.message (place : Place) : String :=
  s!"line {place.line} column {place.column} (char {place.offset})"

def Container.message : Container → String
  | array => "array"
  | object => "object"

def Failure.message : Failure → String
  | malformed fault place => fault.message ++ ": " ++ place.message
  | integerTooLong digits =>
      s!"Exceeds the limit ({maxDigits} digits) for integer string conversion: value has " ++
        s!"{digits} digits; use sys.set_int_max_str_digits() to increase the limit"
  | tooDeep container =>
      "maximum recursion depth exceeded while decoding a JSON " ++ container.message ++
        " from a unicode string"

end RequestForms.Json
