import Routing.Toml.Reader

/-!
# Texts in quotes

A text stands between quotes on one line, or in a **block** between triple quotes over several.
Between double quotes a backslash begins an escape; between single quotes every character is itself.

* `Quote.escape` — the character that an escape denotes
* `Quote.text` — a text in quotes of any of the four kinds
-/

namespace Routing.Toml.Quote

/-- Exactly `n` hexadecimal digits, as the character of that code point. -/
def codePoint (n : Nat) : Reader Char := fun s =>
  let digits := s.take n
  if digits.length = n ∧ digits.all (Numeral.isDigit 16) then
    (Numeral.charOf? (Numeral.value 16 digits)).map fun c => (c, s.drop n)
  else none

/-- The character that an escape denotes; the text stands after the backslash. -/
def escape : Reader Char
  | [] => none
  | c :: s =>
    match c with
    | 'b' => some ('\x08', s)
    | 't' => some ('\t', s)
    | 'n' => some ('\n', s)
    | 'f' => some ('\x0c', s)
    | 'r' => some ('\r', s)
    | '"' => some ('"', s)
    | '\\' => some ('\\', s)
    | 'u' => codePoint 4 s
    | 'U' => codePoint 8 s
    | _ => none

/-! ## On one line -/

/-- The quote that ends a text on one line. -/
def lineClose (quote : Char) : Reader Text := fun s =>
  (Reader.char quote s).map fun rest => ([], rest)

/-- A character of a text on one line. -/
def rawPiece : Reader Text
  | [] => none
  | c :: s => if Reader.isPlain c then some ([c], s) else none

/-- A character or an escape of a text on one line. -/
def piece : Reader Text
  | '\\' :: s => (escape s).map fun (c, rest) => ([c], rest)
  | s => rawPiece s

/-! ## In a block -/

/-- The three quotes that end a block. One or two quotes more before them belong to the text. -/
def blockClose (quote : Char) : Reader Text := fun s =>
  -- of a longer run the first quotes are text and the last three the end
  let n := (s.takeWhile (· = quote)).length
  if n < 3 then none
  else some (List.replicate (min (n - 3) 2) quote, s.drop (min n 5))

/-- A character of a block, or the end of a line, which is a line feed in the text. -/
def rawBlockPiece : Reader Text := fun s =>
  match Reader.newline s with
  | some rest => some (['\n'], rest)
  | none => rawPiece s

/-- The text after spaces and ends of lines. -/
def skipBlank : Text → Text
  | '\r' :: '\n' :: s => skipBlank s
  | c :: s => if Reader.isSpace c ∨ c = '\n' then skipBlank s else c :: s
  | [] => []

/-- The text after a backslash that stands last on its line: nothing of it is left up to the next
character that is not blank. -/
def continuation (s : Text) : Option Text :=
  (Reader.newline (Reader.spaces s)).map skipBlank

/-- A character, an escape or the end of a line of a block. A backslash at the end of a line joins
the lines. -/
def blockPiece : Reader Text
  | '\\' :: s =>
    -- a backslash before the end of a line is no escape of a line feed
    match continuation s with
    | some rest => some ([], rest)
    | none => (escape s).map fun (c, rest) => ([c], rest)
  | s => rawBlockPiece s

/-! ## Of any kind -/

/-- A text in quotes on one line. -/
def line : Reader Text
  | '"' :: s => Reader.pieces (lineClose '"') piece s
  | '\'' :: s => Reader.pieces (lineClose '\'') rawPiece s
  | _ => none

/-- A text in quotes. A line that ends right after the opening quotes of a block is no part of the
text. -/
def text : Reader Text
  -- before the quotes on one line, where the first two would be an empty text
  | '"' :: '"' :: '"' :: s =>
    Reader.pieces (blockClose '"') blockPiece ((Reader.newline s).getD s)
  | '\'' :: '\'' :: '\'' :: s =>
    Reader.pieces (blockClose '\'') rawBlockPiece ((Reader.newline s).getD s)
  | s => line s

end Routing.Toml.Quote
