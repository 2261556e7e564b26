import Routing.Regex.CharSet
import Routing.Text.Utf8

/-!
# Sets of characters as ranges of bytes

An automaton that reads UTF-8 reads a set of characters as a few **sequences of byte ranges**: the
characters of one sequence are those whose bytes lie in its ranges, one after the other. A range of
code points falls into such sequences at the code points where the number of bytes changes and,
among encodings of one length, where all the bytes behind one run through all their values.

* `CharSet.ranges` — the ranges of code points of a set
* `ByteRanges.ofRange` — the sequences of a range of code points, in ascending order
* `CharSet.sequences` — the sequences of a set
-/

namespace Routing.Regex

def CharSet.ranges (s : CharSet) : List (Nat × Nat) :=
  pairs s.bounds
where
  /-- Each range begins at a bound and ends before the next one. -/
  pairs : List Nat → List (Nat × Nat)
    | lo :: hi :: rest => (lo, hi - 1) :: pairs rest
    | _ => []

def CharSet.isAscii (s : CharSet) : Bool :=
  s.bounds.all (· ≤ 0x80)

/-- A range of byte values, both ends included. -/
abbrev ByteRange := UInt8 × UInt8

namespace ByteRanges

/-- The code points whose encodings have one length; surrogates have none. -/
def lengthClasses : List (Nat × Nat) :=
  [(0, 0x7F), (0x80, 0x7FF), (0x800, 0xD7FF), (0xE000, 0xFFFF), (0x10000, 0x10FFFF)]

/-- The part of a range that another one holds. -/
def clip (lo hi : Nat) (within : Nat × Nat) : Option (Nat × Nat) :=
  if max lo within.1 ≤ min hi within.2 then some (max lo within.1, min hi within.2) else none

/-- Cuts a range where blocks of the given sizes begin, so that a piece either lies in one block or
consists of whole ones. -/
def cut : (sizes : List Nat) → (lo hi : Nat) → List (Nat × Nat)
  | [], lo, hi => [(lo, hi)]
  | b :: sizes, lo, hi =>
    if lo / b = hi / b then [(lo, hi)]
    else
      -- the first block that begins in the range, and the one in which it ends
      let front := (lo + b - 1) / b * b
      let back := (hi + 1) / b * b
      (if lo < front then [(lo, front - 1)] else []) ++
        (if front < back then cut sizes front (back - 1) else []) ++
        (if back ≤ hi then [(back, hi)] else [])

/-- The sequences of the code points from `lo` to `hi`. -/
def ofRange (lo hi : Nat) : List (List ByteRange) :=
  (lengthClasses.filterMap (clip lo hi)).flatMap fun (lo, hi) =>
    -- the blocks of characters that share all bytes but the last one, two or three
    (if hi < 0x80 then [(lo, hi)] else cut [0x40, 0x1000, 0x40000] lo hi).map fun (lo, hi) =>
      (Utf8.encodeCode lo).zip (Utf8.encodeCode hi)

end ByteRanges

/-- The sequences of a set, in ascending order. -/
def CharSet.sequences (s : CharSet) : List (List ByteRange) :=
  s.ranges.flatMap fun (lo, hi) => ByteRanges.ofRange lo hi

end Routing.Regex
