import Routing.Text.Numeral

/-!
# Readers

A reader takes a value off the beginning of a text and answers with the rest, or with nothing when
no value stands there. What is malformed is told by no more than that.

* `Reader.char` — one known character
* `Reader.pieces` — pieces up to an end, `Reader.separated` — items with a mark between them
* `Reader.spaces`, `Reader.newline`, `Reader.comment`, `Reader.gap` — what stands between values
-/

namespace Routing.Toml

abbrev Reader (α : Type) := Text → Option (α × Text)

namespace Reader

variable {α : Type}

/-- The rest of a text that begins with the character. -/
def char (c : Char) (s : Text) : Option Text :=
  Text.afterPrefix? [c] s

/-- Reads `piece` after `piece` until `close` succeeds, at most `fuel` times in all. -/
def piecesWithin (close piece : Reader (List α)) : (fuel : Nat) → Reader (List α)
  | 0, _ => none
  | fuel + 1, s =>
    -- the end first: a piece could take its characters for its own
    match close s with
    | some (last, rest) => some (last, rest)
    | none => do
      let (first, s) ← piece s
      let (more, rest) ← piecesWithin close piece fuel s
      return (first ++ more, rest)

/-- Reads `piece` after `piece` until `close` succeeds. Every piece takes a character at least, so
the length of the text bounds their number. -/
def pieces (close piece : Reader (List α)) : Reader (List α) := fun s =>
  piecesWithin close piece (s.length + 1) s

/-- Reads items with `mark` between them, at most `fuel` in all. -/
def separatedWithin (mark : Char) (item : Reader α) : (fuel : Nat) → Reader (List α)
  | 0, _ => none
  | fuel + 1, s => do
    let (first, s) ← item s
    match char mark s with
    | none => return ([first], s)
    | some s =>
      let (more, rest) ← separatedWithin mark item fuel s
      return (first :: more, rest)

/-- Reads one item or more with `mark` between them. -/
def separated (mark : Char) (item : Reader α) : Reader (List α) := fun s =>
  separatedWithin mark item (s.length + 1) s

/-! ## Between values -/

def isSpace (c : Char) : Bool := c = ' ' || c = '\t'

/-- What a line may hold: no control character but the tab. -/
def isPlain (c : Char) : Bool :=
  c = '\t' || (' ' ≤ c && c ≠ '\x7f')

/-- The text after its spaces and tabs. -/
def spaces (s : Text) : Text := s.dropWhile isSpace

/-- The rest after the end of a line: a line feed, which a carriage return may precede. -/
def newline : Text → Option Text
  | '\n' :: s => some s
  | '\r' :: '\n' :: s => some s
  | _ => none

/-- The rest after a comment: from `#` to the end of the line. -/
def comment : Text → Option Text
  | '#' :: s => some (s.dropWhile isPlain)
  | _ => none

/-- The rest after the end of a line or of the whole text, before which a comment may stand. -/
def lineEnd (s : Text) : Option Text :=
  let s := spaces s
  -- a comment does not take the end of its line, so that still has to follow
  match (comment s).getD s with
  | [] => some []
  | s => newline s

/-- Skips spaces, ends of lines and comments, at most `fuel` of them. -/
def gapWithin : (fuel : Nat) → Text → Text
  | 0, s => s
  | fuel + 1, s =>
    match newline (spaces s) <|> comment (spaces s) with
    | some s => gapWithin fuel s
    | none => spaces s

/-- The text after spaces, ends of lines and comments. -/
def gap (s : Text) : Text := gapWithin s.length s

end Reader

end Routing.Toml
