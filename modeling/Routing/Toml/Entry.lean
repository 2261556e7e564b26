import Routing.Toml.Number
import Routing.Toml.Quote
import Routing.Toml.Tree

/-!
# Keys and values

What stands on both sides of an equals sign. A key is a name, bare or in quotes, after the names of
inner tables with points between them. A value may hold others, in brackets and in braces; they nest
to a bounded depth.

* `Entry.key` — a key
* `Entry.value` — a value
* `Entry.pair` — a key, the sign and a value
-/

namespace Routing.Toml.Entry

/-! ## Keys -/

/-- The characters of bare names. -/
def isBare (c : Char) : Bool :=
  c.isAlphanum || c = '-' || c = '_'

/-- A name, bare or in quotes. -/
def name : Reader Text := fun s =>
  match s.takeWhile isBare with
  | [] => Quote.line s
  | bare => some (bare, s.drop bare.length)

/-- A name with spaces around it. -/
def spacedName : Reader Text := fun s => do
  let (part, rest) ← name (Reader.spaces s)
  return (part, Reader.spaces rest)

/-- How many names a key may have, and how deep values may nest, is less than this. -/
def depthLimit : Nat := 80

/-- The key that a list of names writes. -/
def keyOf? (names : List Text) : Option Key :=
  match names.reverse with
  | [] => none
  | name :: path => if names.length < depthLimit then some ⟨path.reverse, name⟩ else none

/-- A key: names with points between them. -/
def key : Reader Key := fun s => do
  let (names, rest) ← Reader.separated '.' spacedName s
  return (← keyOf? names, rest)

/-! ## Values -/

/-- A value that holds no others. -/
def scalar : Reader Value
  | 't' :: 'r' :: 'u' :: 'e' :: s => some (.boolean true, s)
  | 'f' :: 'a' :: 'l' :: 's' :: 'e' :: s => some (.boolean false, s)
  | s =>
    match Quote.text s with
    | some (t, rest) => some (.string t, rest)
    | none =>
      -- before the numbers: a date begins with digits, too
      match Moment.read s with
      | some (m, rest) => some (.moment m, rest)
      | none => Number.read s

/-- An item of an array with the comma after it, which the last item may lack. -/
def item (value : Reader Value) : Reader (List Value) := fun s => do
  let (v, rest) ← value (Reader.gap s)
  match Reader.gap rest with
  | ',' :: rest => return ([v], rest)
  -- the bracket is left for the end of the array
  | ']' :: rest => return ([v], ']' :: rest)
  | _ => none

/-- The bracket that ends an array. -/
def arrayClose : Reader (List Value) := fun s =>
  (Reader.char ']' (Reader.gap s)).map fun rest => ([], rest)

/-- A key, an equals sign and a value. -/
def pairOf (value : Reader Value) : Reader (Key × Value) := fun s => do
  let (k, rest) ← key s
  let (v, rest) ← value (Reader.spaces (← Reader.char '=' rest))
  return ((k, v), rest)

/-- The pairs of a table in braces, which stand on one line. -/
def braced (value : Reader Value) : Reader (List (Key × Value)) := fun s =>
  match Reader.spaces s with
  | '}' :: rest => some ([], rest)
  | s => do
    -- spaces alone between pairs: unlike in an array, lines may not end here
    let spacedPair : Reader (Key × Value) := fun s => do
      let (pair, rest) ← pairOf value s
      return (pair, Reader.spaces rest)
    let (pairs, rest) ← Reader.separated ',' spacedPair s
    return (pairs, ← Reader.char '}' rest)

/-- The table of pairs in braces. -/
def tableOf? (pairs : List (Key × Value)) : Option Value := do
  -- dotted keys grow the inner tables as they do in a document
  let entries ← pairs.foldlM (fun (es : Entries) (k, v) => es.bind? [] k v) []
  return .table (Entries.finish entries)

/-- A value in which others nest less than `depth` deep. -/
def valueWithin : (depth : Nat) → Reader Value
  | 0 => scalar
  | depth + 1 => fun s =>
    match s with
    | '[' :: s => do
      let (items, rest) ← Reader.pieces arrayClose (item (valueWithin depth)) s
      return (.array items, rest)
    | '{' :: s => do
      let (pairs, rest) ← braced (valueWithin depth) s
      return (← tableOf? pairs, rest)
    | s => scalar s

def value : Reader Value :=
  valueWithin (depthLimit - 1)

def pair : Reader (Key × Value) :=
  pairOf value

end Routing.Toml.Entry
