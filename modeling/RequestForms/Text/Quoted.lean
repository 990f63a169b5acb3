import RequestForms.Text.Printable

/-!
# Texts inside other texts

A text is shown in quotes that it does not contain, if possible, and with escapes for what cannot be
seen. One that takes too many bytes is shown by its ends.
-/

namespace RequestForms.Text

/-- The digit of a value below sixteen. Letters are counted from the given one. -/
def hexDigit (ten : Char) (n : Nat) : Char :=
  if n < 10 then Char.ofNat (n + 48) else Char.ofNat (n - 10 + ten.toNat)

def hex (ten : Char) : (width : Nat) → Nat → List Char
  | 0, _ => []
  | width + 1, n => hex ten width (n / 16) ++ [hexDigit ten (n % 16)]

@[simp] theorem length_hex (ten : Char) (width n : Nat) : (hex ten width n).length = width := by
  induction width generalizing n with
  | zero => rfl
  | succ width ih => simp [hex, ih]

/-- An escape by code point, as short as the code point admits. -/
def codePointEscape (ten : Char) (c : Char) : List Char :=
  let n := c.toNat
  if n < 0x100 then '\\' :: 'x' :: hex ten 2 n
  else if n < 0x10000 then '\\' :: 'u' :: hex ten 4 n
  else '\\' :: 'U' :: hex ten 8 n

def quotedChar (mark c : Char) : List Char :=
  if c = mark ∨ c = '\\' then ['\\', c]
  else if c = '\n' then ['\\', 'n']
  else if c = '\r' then ['\\', 'r']
  else if c = '\t' then ['\\', 't']
  else if isPrintable c then [c]
  else codePointEscape 'a' c

/-- The quotation mark for a text: double only if single ones occur in it and double ones do
not. -/
def quotationMark (s : List Char) : Char :=
  if s.contains '\'' && !s.contains '"' then '"' else '\''

def quoted (s : String) : String :=
  let mark := quotationMark s.toList
  String.ofList (mark :: s.toList.flatMap (quotedChar mark) ++ [mark])

def byteCount : List Char → Nat
  | [] => 0
  | c :: rest => c.utf8Size + byteCount rest

def takeBytes : Nat → List Char → List Char
  | _, [] => []
  | room, c :: rest =>
      if c.utf8Size ≤ room then c :: takeBytes (room - c.utf8Size) rest else []

/-- A text of at most fifty bytes, or the ends of a longer one. -/
def abridged (s : List Char) : List Char :=
  if byteCount s ≤ 50 then s
  else takeBytes 25 s ++ "...".toList ++ (takeBytes 24 s.reverse).reverse

end RequestForms.Text
