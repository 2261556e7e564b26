import Routing.Toml.Value

/-!
# Numbers

Whole numbers in four bases, and binary fractions. Single underscores may stand between digits. A
whole number must fit into 64 bits, and a positive fraction must not be beyond the greatest number.

* `Number.digits` — digits without their underscores
* `Number.read` — a number at the beginning of a text
-/

namespace Routing.Toml.Number

/-- The digits that follow a digit, each of them with or without an underscore before it. -/
def moreDigits (p : Char → Bool) : Text → Text × Text
  | '_' :: c :: s =>
    if p c then
      let (digits, rest) := moreDigits p s
      (c :: digits, rest)
    else ([], '_' :: c :: s)
  | c :: s =>
    if p c then
      let (digits, rest) := moreDigits p s
      (c :: digits, rest)
    else ([], c :: s)
  | [] => ([], [])

/-- One digit or more, without the underscores between them. -/
def digits (p : Char → Bool) : Reader Text
  | c :: s =>
    if p c then
      let (digits, rest) := moreDigits p s
      some (c :: digits, rest)
    else none
  | [] => none

/-- The digits of a whole number: zero stands alone. -/
def whole : Reader Text
  | '0' :: s => some (['0'], s)
  | s => digits Char.isDigit s

/-- Whether the number is negative, and what follows its sign. -/
def sign : Text → Bool × Text
  | '-' :: s => (true, s)
  | '+' :: s => (false, s)
  | s => (false, s)

def signed (negative : Bool) (n : Nat) : Int :=
  if negative then -n else n

/-- The whole number, when it fits into 64 bits. -/
def integer? (i : Int) : Option Value :=
  if -0x8000000000000000 ≤ i ∧ i < 0x8000000000000000 then some (.integer i) else none

/-- The fraction, unless it is positive and out of range. -/
def float? (x : Binary64) : Option Value :=
  if x = .infinite false then none else some (.float x)

/-- A whole number after the letter of its base. -/
def based (base : Nat) : Reader Value := fun s => do
  let (ds, rest) ← digits (Numeral.isDigit base) s
  return (← integer? (Numeral.value base ds), rest)

/-- Reads the part of a fraction after the point; nothing where there is no point. -/
def afterPoint : Text → Option (Text × Text)
  | '.' :: s => digits Char.isDigit s
  | s => some ([], s)

/-- Reads an exponent, zero where there is none. -/
def exponent (s : Text) : Option (Int × Text) :=
  match s with
  | [] => some (0, [])
  | c :: r =>
    if c = 'e' ∨ c = 'E' then do
      let (negative, r) := sign r
      let (ds, rest) ← digits Char.isDigit r
      return (signed negative (Numeral.value 10 ds), rest)
    else some (0, s)

/-- A number in base ten: whole without point and exponent, a fraction with one of them. -/
def decimal (negative : Bool) : Reader Value := fun s => do
  let (ds, r) ← whole s
  let (fs, r') ← afterPoint r
  let (power, rest) ← exponent r'
  -- neither a point nor an exponent was taken
  if rest.length = r.length then
    return (← integer? (signed negative (Numeral.value 10 ds)), rest)
  else
    let x := Binary64.ofDecimal negative (Numeral.value 10 (ds ++ fs)) (power - fs.length)
    return (← float? x, rest)

/-- A number after its sign: one without digits, or in base ten. -/
def afterSign (negative : Bool) : Reader Value
  | 'i' :: 'n' :: 'f' :: s => some (.float (.infinite negative), s)
  | 'n' :: 'a' :: 'n' :: s => some (.float .nan, s)
  | s => decimal negative s

def read : Reader Value
  | '0' :: 'x' :: s => based 16 s
  | '0' :: 'o' :: s => based 8 s
  | '0' :: 'b' :: s => based 2 s
  -- a sign goes with base ten only
  | s => afterSign (sign s).1 (sign s).2

end Routing.Toml.Number
