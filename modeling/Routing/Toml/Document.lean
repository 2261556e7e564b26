import Routing.Toml.Entry

/-!
# Documents

A document is a sequence of lines: headers in brackets, each of which opens a table, and pairs of a
key and a value, which belong to the table opened last. The outermost table is open at the
beginning.

* `Statement` — a header or a pair
* `Statement.read` — a line
* `Document.read` — the entries of a whole document
-/

namespace Routing.Toml

inductive Statement where
  | table (key : Key)
  /-- Open one more table of a sequence. -/
  | tables (key : Key)
  /-- Bind a key in the table that is open. -/
  | bind (key : Key) (v : Value)

namespace Statement

/-- A header or a pair, without the end of its line. -/
def body : Reader Statement
  -- before the single bracket, whose header may not begin with another one
  | '[' :: '[' :: s => do
    let (k, s) ← Entry.key s
    return (tables k, ← Reader.char ']' (← Reader.char ']' s))
  | '[' :: s => do
    let (k, s) ← Entry.key s
    return (table k, ← Reader.char ']' s)
  | s => do
    let ((k, v), s) ← Entry.pair s
    return (bind k v, s)

/-- A line, which may say nothing. -/
def read : Reader (List Statement) := fun s =>
  match Reader.lineEnd s with
  | some rest => some ([], rest)
  -- a statement has its line for itself, so the end of the line is asked for again behind it
  | none => do
    let (statement, rest) ← body (Reader.spaces s)
    return ([statement], ← Reader.lineEnd rest)

end Statement

namespace Document

/-- The end of a text. -/
def close : Reader (List Statement)
  | [] => some ([], [])
  | _ => none

/-- The statements of a text. A byte-order mark may stand before them. -/
def statements (s : Text) : Option (List Statement) :=
  (Reader.pieces close Statement.read ((Reader.char '\uFEFF' s).getD s)).map Prod.fst

/-- The entries that statements make, from those that stand, with the table at `path` open. -/
def build : (path : List Text) → Entries → List Statement → Option Entries
  | _, es, [] => some es
  | _, es, .table k :: rest => do build (k.path ++ [k.name]) (← es.open? k) rest
  | _, es, .tables k :: rest => do build (k.path ++ [k.name]) (← es.push? k) rest
  | path, es, .bind k v :: rest => do build path (← es.bind? path k v) rest

/-- The entries of a document. -/
def read (s : Text) : Option (List (Text × Value)) := do
  return Entries.finish (← build [] [] (← statements s))

end Document

end Routing.Toml
