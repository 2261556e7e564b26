import Routing.Toml.Value

/-!
# Growing tables

A document states its tables piece by piece: headers open them, dotted keys grow them from inside,
and neither may reopen what is already complete. A **node** is what a name is bound to while the
document is being read, and it remembers how it came to be.

* `Node`, `Origin` — nodes, and how a table came to be
* `Entries.bind?` — a value under a key
* `Entries.open?`, `Entries.push?` — a table, or one more table of a sequence, under a header
* `Node.finish`, `Entries.finish` — the finished values
-/

namespace Routing.Toml

/-- A name after the names of the tables that lead to it. -/
structure Key where
  /-- The tables, the outermost first. -/
  path : List Text
  /-- The name in the last of them. -/
  name : Text
deriving DecidableEq

/-- How a table came to be. -/
inductive Origin where
  | header
  /-- A header named it on its way to another table. -/
  | implied
  /-- A dotted key named it on its way to a value. -/
  | dotted
deriving DecidableEq

/-- What a name is bound to in an unfinished document. -/
inductive Node where
  /-- A value; nothing can be added to it. -/
  | value (v : Value)
  | table (origin : Origin) (entries : List (Text × Node))
  /-- A sequence of tables, of which the last can grow. -/
  | tables (done : List (List (Text × Node))) (last : List (Text × Node))

/-- The entries of an unfinished table. -/
abbrev Entries := List (Text × Node)

namespace Entries

/-- Changes what a name is bound to. A name that was not bound becomes the last entry. -/
def alter? (name : Text) (change : Option Node → Option Node) : Entries → Option Entries
  | [] => (change none).map fun node => [(name, node)]
  | (k, node) :: rest =>
    if k = name then (change (some node)).map fun node => (k, node) :: rest
    else (alter? name change rest).map ((k, node) :: ·)

/-- Changes the table at the end of a path. Tables that are missing on the way come to be by `step`.
Steps of a dotted key do not enter a table that a header opened. -/
def alterAt? (step : Origin) (change : Origin → Entries → Option Entries) :
    (path : List Text) → Origin → Entries → Option Entries
  | [], origin, es => change origin es
  | name :: path, _, es =>
    es.alter? name fun
      | none => (alterAt? step change path step []).map (.table step)
      | some (.value _) => none
      | some (.table origin inner) =>
        if step = .dotted ∧ origin = .header then none
        else (alterAt? step change path origin inner).map (.table origin)
      -- a sequence is entered at its last table, which the latest header opened
      | some (.tables done last) => (alterAt? step change path .header last).map (.tables done)

/-- Binds a name that is not bound yet. -/
def add? (name : Text) (v : Value) (es : Entries) : Option Entries :=
  es.alter? name fun
    | none => some (.value v)
    | some _ => none

/-- Binds a key in the table at the end of a path. The key's own path ends in a table that dotted
keys grow, and a key without a path stands in any other. -/
def bind? (table : List Text) (key : Key) (v : Value) (es : Entries) : Option Entries :=
  es.alterAt? .implied (fun origin es =>
    es.alterAt? .dotted (fun origin es =>
      -- a table grown by dotted keys may not be grown through its header, nor the other way round
      if origin = .dotted ↔ key.path = [] then none else es.add? key.name v)
      key.path origin) table .header

/-- Opens the table of a header: a new one, or one that was only named before. Either way it becomes
the last entry. -/
def open? (key : Key) (es : Entries) : Option Entries :=
  es.alterAt? .implied (fun _ es =>
    -- taken out and put back last: the order of the headers is the order of the entries
    let others := es.filter (·.1 ≠ key.name)
    match es.lookup key.name with
    | none => some (others ++ [(key.name, .table .header [])])
    | some (.table .implied inner) => some (others ++ [(key.name, .table .header inner)])
    | some _ => none) key.path .header

/-- Opens one more table of a sequence. -/
def push? (key : Key) (es : Entries) : Option Entries :=
  es.alterAt? .implied (fun _ es =>
    es.alter? key.name fun
      | none => some (.tables [] [])
      | some (.tables done last) => some (.tables (done ++ [last]) [])
      | some _ => none) key.path .header

end Entries

/-! ## Finished values -/

mutual

/-- The value of a node. -/
def Node.finish : Node → Value
  | .value v => v
  | .table _ entries => .table (Entries.finish entries)
  | .tables done last => .array (Entries.finishAll done ++ [.table (Entries.finish last)])

def Entries.finish : List (Text × Node) → List (Text × Value)
  | [] => []
  | (name, node) :: rest => (name, node.finish) :: Entries.finish rest

def Entries.finishAll : List (List (Text × Node)) → List Value
  | [] => []
  | entries :: rest => .table (Entries.finish entries) :: Entries.finishAll rest

end

end Routing.Toml
