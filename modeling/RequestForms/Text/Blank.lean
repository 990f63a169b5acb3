/-!
# Blank characters

The white space of every script, and what is left of a text without it at its ends. A class of
characters is a list of closed ranges of code points in ascending order.
-/

namespace RequestForms.Text

/-- Membership in ascending ranges: past `n`, no later range can hold it. -/
def inRanges (n : Nat) : List (Nat × Nat) → Bool
  | [] => false
  | (first, last) :: rest => first ≤ n && (n ≤ last || inRanges n rest)

/-- Tabs, line breaks, the four information separators and the spaces of every width. The
zero-width characters are not among them. -/
def blankRanges : List (Nat × Nat) :=
  [(0x9, 0xd), (0x1c, 0x20), (0x85, 0x85), (0xa0, 0xa0), (0x1680, 0x1680), (0x2000, 0x200a),
    (0x2028, 0x2029), (0x202f, 0x202f), (0x205f, 0x205f), (0x3000, 0x3000)]

def isBlank (c : Char) : Bool := inRanges c.toNat blankRanges

def stripStart (s : List Char) : List Char := s.dropWhile isBlank

def stripEnd (s : List Char) : List Char := (s.reverse.dropWhile isBlank).reverse

def strip (s : List Char) : List Char := stripEnd (stripStart s)

theorem length_stripStart_le (s : List Char) : (stripStart s).length ≤ s.length :=
  (List.dropWhile_sublist isBlank).length_le

def trim (s : String) : String := String.ofList (strip s.toList)

@[simp] theorem toList_trim (s : String) : (trim s).toList = strip s.toList :=
  String.toList_ofList

end RequestForms.Text
