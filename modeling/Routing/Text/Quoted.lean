import Routing.Text.Hidden

/-!
# Quoted text

How messages show a text or a character taken from their input: between quotes, with the quote of
its kind and the backslash escaped, short escapes for the four common controls, and `\u{…}` for
whatever else has no visible form.

* `Quoted.text` — between double quotes, `"` escaped;
* `Quoted.char` — between single quotes, `'` escaped.
-/

namespace Routing.Quoted

/-- The escape `\u{…}` with the code point in lower-case hexadecimal. -/
def codeEscape (c : Char) : Text :=
  "\\u\x7b".toList ++ Nat.toDigits 16 c.toNat ++ "\x7d".toList

/-- One character inside quotes of the kind `quote`. -/
def escape (quote c : Char) : Text :=
  if c = Char.ofNat 0 then "\\0".toList
  else if c = '\t' then "\\t".toList
  else if c = '\n' then "\\n".toList
  else if c = '\r' then "\\r".toList
  else if c = '\\' ∨ c = quote then ['\\', c]
  else if isHidden c then codeEscape c
  else [c]

/-- A text between double quotes. -/
def text (s : Text) : Text :=
  ['"'] ++ s.flatMap (escape '"') ++ ['"']

/-- A character between single quotes. -/
def char (c : Char) : Text :=
  ['\''] ++ escape '\'' c ++ ['\'']

end Routing.Quoted
