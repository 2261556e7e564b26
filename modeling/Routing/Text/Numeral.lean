import Routing.Text

/-!
# Numerals

Digits and the whole numbers that they write.

* `Numeral.hexValue?` — the value of a hexadecimal digit, in either case
* `Numeral.isDigit` — the digits of a base of at most sixteen
* `Numeral.value` — the number that digits write
* `Numeral.charOf?` — the character of a code point
-/

namespace Routing.Numeral

/-- The value of a hexadecimal digit. -/
def hexValue? (c : Char) : Option Nat :=
  if c.isDigit then some (c.toNat - '0'.toNat)
  else if 'a' ≤ c ∧ c ≤ 'f' then some (c.toNat - 'a'.toNat + 10)
  else if 'A' ≤ c ∧ c ≤ 'F' then some (c.toNat - 'A'.toNat + 10)
  else none

/-- Whether the character is a digit of the base. -/
def isDigit (base : Nat) (c : Char) : Bool :=
  (hexValue? c).any (· < base)

/-- The number that digits write, the most significant first. -/
def value (base : Nat) (digits : Text) : Nat :=
  digits.foldl (fun n c => base * n + (hexValue? c).getD 0) 0

/-- The character of a code point, when there is one. -/
def charOf? (n : Nat) : Option Char :=
  if n.isValidChar then some (Char.ofNat n) else none

/-- Digits padded with zeros to a width. -/
def padded (width n : Nat) : Text :=
  let digits := Text.ofNat n
  List.replicate (width - digits.length) '0' ++ digits

end Routing.Numeral
