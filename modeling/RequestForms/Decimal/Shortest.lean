import RequestForms.Decimal.Binary64

/-!
# Shortest decimals

The fewest decimal digits that read back as a given double, and of those the nearest to it.
-/

namespace RequestForms.Double

/-- The reals that round to a double, as numerators over one denominator. The ends belong to them
when the mantissa is even. -/
structure Interval where
  low : Nat
  value : Nat
  high : Nat
  den : Nat
  closed : Bool

/-- The reals that round to `mantissa · 2 ^ exponent`. Below a power of two the doubles lie closer
together. -/
def interval (mantissa : Nat) (exponent : Int) : Interval :=
  let below := if mantissa = power 2 52 ∧ minExponent < exponent then 1 else 2
  let scale := power 2 exponent
  { low := (4 * mantissa - below) * scale
    value := 4 * mantissa * scale
    high := (4 * mantissa + 2) * scale
    den := 4 * power 2 (-exponent)
    closed := mantissa % 2 = 0 }

def Interval.holds (i : Interval) (digits : Nat) (place : Int) : Bool :=
  let x := digits * power 10 place * i.den
  let low := i.low * power 10 (-place)
  let high := i.high * power 10 (-place)
  (low < x && x < high) || (i.closed && (x == low || x == high))

def leadingPlace (num den : Nat) : Int :=
  if den ≤ num then (Nat.toDigits 10 (num / den)).length - 1
  else -((Nat.toDigits 10 (den / num)).length : Int)

/-- The multiple of `10 ^ place` that is in an interval and nearest to its value, in that unit. Of
two that are equally near, the even one. -/
def Interval.onGrid? (i : Interval) (place : Int) : Option Nat :=
  let num := i.value * power 10 (-place)
  let den := i.den * power 10 place
  let down := num / den
  match i.holds down place, i.holds (down + 1) place with
  | true, true => some (roundQuotient num den)
  | true, false => some down
  | false, true => some (down + 1)
  | false, false => none

/-- The first grid from a place downwards that has a point in an interval. -/
def Interval.search (i : Interval) : (more : Nat) → (place : Int) → Nat × Int
  | 0, place => (i.value * power 10 (-place) / (i.den * power 10 place), place)
  | more + 1, place =>
      match i.onGrid? place with
      | some digits => (digits, place)
      | none => i.search more (place - 1)

/-- The fewest digits that read back as a positive double: their number and the place of the last
one. Seventeen digits always do. -/
def shortest (mantissa : Nat) (exponent : Int) : Nat × Int :=
  let i := interval mantissa exponent
  i.search 17 (leadingPlace i.value i.den)

end RequestForms.Double
