/-!
# Binary fractions of 53 bits

The numbers of the IEEE double format, by their meaning: a sign and `m · 2 ^ e`, where `m` has at
most 53 bits and `e` is at least `-1074`. A decimal fraction is **rounded to the nearest** of them,
and of two that are equally near to the one whose last bit is zero. All arithmetic is exact.

* `Binary64` — a number of the format
* `Binary64.nearest?` — the nearest number to a quotient, when it is in range
* `Binary64.ofDecimal` — the nearest number to decimal digits and a power of ten
-/

namespace Routing

/-- A number of the format. -/
inductive Binary64 where
  /-- No number. -/
  | nan
  | infinite (negative : Bool)
  /-- The number `m · 2 ^ e`, or its negative. -/
  | finite (negative : Bool) (m : Nat) (e : Int)
deriving DecidableEq

namespace Binary64

def minExponent : Int := -1074

/-- The greatest exponent of a number with 53 bits. -/
def maxExponent : Int := 971

/-- The factor that `2 ^ e` puts on a numerator. -/
def above (e : Int) : Nat := 1 <<< e.toNat

/-- The factor that `2 ^ e` puts on a denominator. -/
def below (e : Int) : Nat := 1 <<< (-e).toNat

/-- The quotient rounded to the nearest whole number, a half to the even one. -/
def roundDiv (num den : Nat) : Nat :=
  let q := num / den
  let twice := 2 * (num % den)
  if twice < den then q
  else if den < twice then q + 1
  else if q % 2 = 0 then q else q + 1

/-- The exponent at which the quotient has 53 bits, or the least exponent if it is smaller. -/
def exponentOf (num den : Nat) : Int :=
  let e : Int := (num.log2 : Int) - den.log2 - 52
  -- the estimate from the two lengths is at most one too great
  let e := if num * below e < (den * above e) <<< 52 then e - 1 else e
  max e minExponent

/-- The nearest number to a quotient as its bits and exponent; nothing when it is out of range. -/
def nearest? (num den : Nat) : Option (Nat × Int) :=
  if num = 0 then some (0, minExponent)
  else
    let e := exponentOf num den
    let m := roundDiv (num * below e) (den * above e)
    -- rounding up may have brought a bit more
    let (m, e) := if m = 1 <<< 53 then (1 <<< 52, e + 1) else (m, e)
    if e ≤ maxExponent then some (m, e) else none

/-- The nearest number to `digits · 10 ^ power`. A power that takes the number far out of range is
not computed. -/
def ofDecimal (negative : Bool) (digits : Nat) (power : Int) : Binary64 :=
  let size : Int := (Nat.toDigits 10 digits).length + power
  -- the format ends long before a number of 400 places, on either side of the point
  if digits = 0 ∨ size < -400 then finite negative 0 minExponent
  else if 400 < size then infinite negative
  else
    match nearest? (digits * Nat.pow 10 power.toNat) (Nat.pow 10 (-power).toNat) with
    | some (m, e) => finite negative m e
    | none => infinite negative

end Binary64

end Routing
