import Routing.Toml.Reader

/-!
# Dates and times

A moment is a calendar date, a time of the day, or both, and a date with a time may tell its offset
from universal time. Dates that the calendar does not have are refused. A fraction of a second is
kept to nine places.

* `Moment` — with `Date`, `Time` and `Offset`
* `Moment.read` — a moment at the beginning of a text
* `Moment.text` — a moment written out
-/

namespace Routing.Toml

/-- A day of the calendar. -/
structure Date where
  /-- The year, of four digits. -/
  year : Nat
  month : Nat
  /-- The day of the month, from one. -/
  day : Nat
deriving DecidableEq

/-- A time of the day. -/
structure Time where
  hour : Nat
  minute : Nat
  /-- The second, at most 60. -/
  second : Nat
  billionths : Nat
deriving DecidableEq

/-- How far a clock is from universal time. -/
inductive Offset where
  | utc
  /-- It is ahead by so many minutes. -/
  | ahead (minutes : Int)
deriving DecidableEq

inductive Moment where
  | date (d : Date)
  /-- A time on any day. -/
  | time (t : Time)
  /-- A time on a day. -/
  | dateTime (d : Date) (t : Time) (offset : Option Offset)
deriving DecidableEq

/-! ## Reading -/

/-- A number of exactly `width` digits between two bounds. -/
def Reader.field (width low high : Nat) : Reader Nat := fun s =>
  let digits := s.take width
  let n := Numeral.value 10 digits
  if digits.length = width ∧ digits.all Char.isDigit ∧ low ≤ n ∧ n ≤ high then
    some (n, s.drop width)
  else none

/-- Leap years are those that four divides, less those that a hundred divides and four hundred does
not. -/
def Date.isLeap (year : Nat) : Bool :=
  year % 4 = 0 && (year % 100 ≠ 0 || year % 400 = 0)

def Date.daysOf (year month : Nat) : Nat :=
  if month = 2 then if isLeap year then 29 else 28
  else if month ∈ [4, 6, 9, 11] then 30
  else 31

/-- Reads `YYYY-MM-DD`. -/
def Date.read : Reader Date := fun s => do
  let (year, s) ← Reader.field 4 0 9999 s
  let (month, s) ← Reader.field 2 1 12 (← Reader.char '-' s)
  let (day, s) ← Reader.field 2 1 (daysOf year month) (← Reader.char '-' s)
  return (⟨year, month, day⟩, s)

/-- Reads a fraction of a second. Places beyond the ninth are cut off. -/
def Time.readFraction : Reader Nat := fun s => do
  let s ← Reader.char '.' s
  match s.takeWhile Char.isDigit with
  | [] => none
  | digits =>
    -- as many places as a billionth has
    let kept := digits.take 9
    return (Numeral.value 10 kept * Nat.pow 10 (9 - kept.length), s.drop digits.length)

/-- Reads `HH:MM:SS` and a fraction. -/
def Time.read : Reader Time := fun s => do
  let (hour, s) ← Reader.field 2 0 23 s
  let (minute, s) ← Reader.field 2 0 59 (← Reader.char ':' s)
  let (second, s) ← Reader.field 2 0 60 (← Reader.char ':' s)
  let (billionths, s) := (readFraction s).getD (0, s)
  return (⟨hour, minute, second, billionths⟩, s)

/-- Reads `Z`, or a sign and `HH:MM`. -/
def Offset.read : Reader Offset
  | [] => none
  | c :: s =>
    if c = 'Z' ∨ c = 'z' then some (utc, s)
    else if c = '+' ∨ c = '-' then do
      let (hours, s) ← Reader.field 2 0 23 s
      let (minutes, s) ← Reader.field 2 0 59 (← Reader.char ':' s)
      let total : Int := hours * 60 + minutes
      return (ahead (if c = '-' then -total else total), s)
    else none

/-- Reads a time after a date: the two stand on both sides of a `T` or a space. -/
def Time.readAfterDate : Reader Time
  | [] => none
  | c :: s => if c = 'T' ∨ c = 't' ∨ c = ' ' then read s else none

def Moment.read : Reader Moment := fun s =>
  match Date.read s with
  | none => (Time.read s).map fun (t, s) => (time t, s)
  | some (d, s) =>
    match Time.readAfterDate s with
    | none => some (date d, s)
    | some (t, s) =>
      match Offset.read s with
      | none => some (dateTime d t none, s)
      | some (offset, s) => some (dateTime d t (some offset), s)

/-- The moment that a whole text writes. -/
def Moment.ofText? (s : Text) : Option Moment :=
  match read s with
  | some (m, []) => some m
  | _ => none

/-! ## Writing -/

/-- The date as `YYYY-MM-DD`. -/
def Date.text (d : Date) : Text :=
  Numeral.padded 4 d.year ++ ['-'] ++ Numeral.padded 2 d.month ++ ['-'] ++ Numeral.padded 2 d.day

/-- The time as `HH:MM:SS`, with the digits of the fraction up to the last that is not zero. -/
def Time.text (t : Time) : Text :=
  Numeral.padded 2 t.hour ++ [':'] ++ Numeral.padded 2 t.minute ++ [':']
    ++ Numeral.padded 2 t.second
    ++ if t.billionths = 0 then []
      else ['.'] ++ (Numeral.padded 9 t.billionths).trimEnd (· = '0')

/-- The offset as `Z`, or as a sign and `HH:MM`. -/
def Offset.text : Offset → Text
  | utc => ['Z']
  | ahead minutes =>
    (if minutes < 0 then ['-'] else ['+']) ++ Numeral.padded 2 (minutes.natAbs / 60) ++ [':']
      ++ Numeral.padded 2 (minutes.natAbs % 60)

/-- The moment with a `T` between date and time. -/
def Moment.text : Moment → Text
  | date d => d.text
  | time t => t.text
  | dateTime d t offset => d.text ++ ['T'] ++ t.text ++ (offset.map Offset.text).getD []

end Routing.Toml
