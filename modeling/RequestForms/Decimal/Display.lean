import RequestForms.Decimal.Shortest

/-!
# Doubles as text

The fewest digits that read back. From `10 ^ -4` up to below `10 ^ 16` the point stands at its
place, with a digit on either side, and elsewhere behind the first digit, with an exponent of at
least two digits.
-/

namespace RequestForms.Double

/-- Whether a number whose point stands behind so many of its digits is written without an
exponent. -/
def isPositional (point : Int) : Bool := -4 < point && point ≤ 16

def positional (digits : List Char) (point : Int) : List Char :=
  if point ≤ 0 then '0' :: '.' :: List.replicate (-point).toNat '0' ++ digits
  else
    let n := point.toNat
    if digits.length ≤ n then digits ++ List.replicate (n - digits.length) '0' ++ ['.', '0']
    else digits.take n ++ '.' :: digits.drop n

def scientific (digits : List Char) (point : Int) : List Char :=
  let exponent := point - 1
  let size := Nat.toDigits 10 exponent.natAbs
  let front :=
    match digits with
    | [] => []
    | [d] => [d]
    | d :: more => d :: '.' :: more
  front ++ 'e' :: (if exponent < 0 then '-' else '+') ::
    (if size.length < 2 then '0' :: size else size)

def significant (n : Nat) : List Char :=
  ((Nat.toDigits 10 n).reverse.dropWhile (· = '0')).reverse

def displayPositive (mantissa : Nat) (exponent : Int) : List Char :=
  let (n, place) := shortest mantissa exponent
  let point := (Nat.toDigits 10 n).length + place
  if isPositional point then positional (significant n) point
  else scientific (significant n) point

def display : Double → String
  | nan => "nan"
  | infinite negative => if negative then "-inf" else "inf"
  | finite negative mantissa exponent =>
      let digits := if mantissa = 0 then "0.0".toList else displayPositive mantissa exponent
      String.ofList (if negative then '-' :: digits else digits)

end RequestForms.Double
