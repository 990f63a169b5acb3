/-!
# Doubles

Numbers with a mantissa of 53 bits and a bounded exponent, and the one nearest to a decimal.
-/

namespace RequestForms

/-- A double-precision number. A finite one has the value `± mantissa · 2 ^ exponent`, where the
mantissa has 53 bits unless the exponent is the least. -/
inductive Double where
  | finite (negative : Bool) (mantissa : Nat) (exponent : Int)
  | infinite (negative : Bool)
  | nan
deriving DecidableEq, Repr, Inhabited

namespace Double

/-- A power of a number, and one if the exponent is negative. -/
def power (base : Nat) (exponent : Int) : Nat := Nat.pow base exponent.toNat

def minExponent : Int := -1074

def maxExponent : Int := 971

def zero (negative : Bool) : Double := .finite negative 0 minExponent

def isZero : Double → Bool
  | .finite _ mantissa _ => mantissa == 0
  | _ => false

def toInt? : Double → Option Int
  | .finite negative mantissa exponent =>
      let num := mantissa * power 2 exponent
      let den := power 2 (-exponent)
      if num % den = 0 then
        let magnitude : Int := (num / den : Nat)
        some (if negative then -magnitude else magnitude)
      else none
  | _ => none

/-- The natural number nearest to a quotient, the even one of two. -/
def roundQuotient (num den : Nat) : Nat :=
  let whole := num / den
  let twice := 2 * (num % den)
  if twice < den then whole
  else if den < twice then whole + 1
  else whole + whole % 2

/-- The quotient `num / (den · 2 ^ exponent)` as numerator and denominator. -/
def scaled (num den : Nat) (exponent : Int) : Nat × Nat :=
  (num * power 2 (-exponent), den * power 2 exponent)

/-- The exponent at which a positive quotient has 53 bits before its point, or the least one. -/
def exponentOf (num den : Nat) : Int :=
  let guess := max ((num.log2 : Int) - den.log2 - 53) minExponent
  let (n, d) := scaled num den guess
  if n < power 2 53 * d then guess else guess + 1

/-- The double nearest to a positive quotient. -/
def ofQuotient (negative : Bool) (num den : Nat) : Double :=
  let exponent := exponentOf num den
  let (n, d) := scaled num den exponent
  let mantissa := roundQuotient n d
  let (mantissa, exponent) :=
    if mantissa = power 2 53 then (power 2 52, exponent + 1) else (mantissa, exponent)
  if maxExponent < exponent then .infinite negative else .finite negative mantissa exponent

/-- The double nearest to `digits · 10 ^ exponent`. Beyond `10 ^ 310` everything is infinite, and
below `10 ^ (-330)` everything is zero. -/
def ofDecimal (negative : Bool) (digits : Nat) (exponent : Int) : Double :=
  if digits = 0 then zero negative
  else
    let magnitude := (Nat.toDigits 10 digits).length + exponent
    if 310 < magnitude then .infinite negative
    else if magnitude < -330 then zero negative
    else ofQuotient negative (digits * power 10 exponent) (power 10 (-exponent))

end Double

end RequestForms
