import Routing.Decimal.Binary64
import Routing.Text

/-!
# The shortest decimal that reads back

A binary fraction is written with the fewest decimal digits that still round to it, and among those
with the ones nearest to it. The notation is positional throughout, without an exponent and without
a point that nothing follows.

* `Shortest.digits` — the digits and the power of ten
* `Binary64.text` — the number in positional notation
-/

namespace Routing

namespace Shortest

/-- The decimals that round to a binary fraction, over a common denominator: from `low` to `high`,
the ends included when `closed`. -/
structure Interval where
  low : Nat
  /-- The fraction itself. -/
  mid : Nat
  high : Nat
  den : Nat
  /-- Whether the ends round to the fraction. -/
  closed : Bool

/-- The interval of `m · 2 ^ e`: half the way to the neighbours on both sides. Below a power of two
the neighbour is nearer by half. -/
def Interval.ofBinary (m : Nat) (e : Int) : Interval :=
  let scale := Binary64.above (e - 2)
  -- quarters of the last place: one below a power of two, else two
  let below := if m = 1 <<< 52 ∧ Binary64.minExponent < e then 1 else 2
  { low := (4 * m - below) * scale
    mid := 4 * m * scale
    high := (4 * m + 2) * scale
    den := Binary64.below (e - 2)
    closed := m % 2 = 0 }

/-- Whether `d · 10 ^ k` rounds to the fraction. -/
def Interval.holds (x : Interval) (d : Nat) (k : Int) : Bool :=
  let p := d * Nat.pow 10 k.toNat * x.den
  let q := Nat.pow 10 (-k).toNat
  if x.closed then x.low * q ≤ p && p ≤ x.high * q else x.low * q < p && p < x.high * q

/-- The greatest `k` with `10 ^ k` at most the fraction; `fuel` bounds the search from `k` down. -/
def magnitude (x : Interval) : (fuel : Nat) → (k : Int) → Int
  | 0, k => k
  | fuel + 1, k =>
    if Nat.pow 10 k.toNat * x.den ≤ x.mid * Nat.pow 10 (-k).toNat then k else magnitude x fuel (k - 1)

/-- The multiples of `10 ^ k` on both sides of the fraction that round to it, the nearer one first;
of two that are equally near, the greater. -/
def candidates (x : Interval) (k : Int) : List Nat :=
  let num := x.mid * Nat.pow 10 (-k).toNat
  let den := Nat.pow 10 k.toNat * x.den
  let d := num / den
  let both := if 2 * (num % den) < den then [d, d + 1] else [d + 1, d]
  -- near is not enough: a candidate has to round to the fraction
  both.filter fun d => x.holds d k

/-- The first digits, from `n` digits on, that read back; `top` is the power of the first digit. -/
def search (x : Interval) (top : Int) : (fuel n : Nat) → Nat × Int
  | 0, n => (0, top - n)
  | fuel + 1, n =>
    match candidates x (top + 1 - n) with
    | d :: _ => (d, top + 1 - n)
    | [] => search x top fuel (n + 1)

/-- Digits without a zero at the end; a power of ten that the fraction is just below has one. -/
def trimZero (d : Nat) (k : Int) : Nat × Int :=
  if d % 10 = 0 ∧ d ≠ 0 then trimZero (d / 10) (k + 1) else (d, k)
termination_by d

/-- The fewest digits that read back as `m · 2 ^ e`, and the power of ten of the last one. Seventeen
digits are always enough. -/
def digits (m : Nat) (e : Int) : Nat × Int :=
  let x := Interval.ofBinary m e
  -- the powers of ten of the format run from 308 down to -324
  let (d, k) := search x (magnitude x 700 310) 18 1
  trimZero d k

end Shortest

namespace Binary64

/-- The decimal `d · 10 ^ k` in positional notation. -/
def positional (d : Nat) (k : Int) : Text :=
  let ds := Text.ofNat d
  if 0 ≤ k then ds ++ List.replicate k.toNat '0'
  else
    let places := (-k).toNat
    if places < ds.length then
      ds.take (ds.length - places) ++ ['.'] ++ ds.drop (ds.length - places)
    else "0.".toList ++ List.replicate (places - ds.length) '0' ++ ds

/-- The number in positional notation, with the fewest digits that read back. -/
def text : Binary64 → Text
  | nan => "NaN".toList
  | infinite negative => (if negative then ['-'] else []) ++ "inf".toList
  | finite negative m e =>
    let (d, k) := if m = 0 then (0, 0) else Shortest.digits m e
    (if negative then ['-'] else []) ++ positional d k

end Binary64

end Routing
