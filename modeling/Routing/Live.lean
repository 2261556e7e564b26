import Routing.RouteFile

/-!
# The table that serves

A table is never changed while it serves requests: a new one is built apart and put in its place.
Whoever took the old one keeps it.

* `Live` — the table that serves now
* `Live.draw` — a table of declarations in its place; when one is refused, the old table stays
* `Live.clear`, `Live.replace`
* `Live.load` — the table of a route file in its place, likewise
-/

namespace Routing

variable [Properties]

/-- The table that serves requests now. -/
structure Live where
  table : Table
deriving DecidableEq

namespace Live

def replace (_ : Live) (t : Table) : Live := ⟨t⟩

/-- Serves the routes of declarations, under the same namespaces. -/
def draw (s : Live) (declarations : List Declaration) : Except CompileError Live := do
  -- built apart; on an error the old table has not been touched
  let fresh := Table.ofNamespaces s.table.namespaces.forget
  return s.replace (← fresh.draw declarations)

/-- Serves no routes, under the same namespaces. -/
def clear (s : Live) : Live :=
  s.replace (Table.ofNamespaces s.table.namespaces.forget)

/-- Why a route file is not served. -/
inductive LoadError where
  /-- The file cannot be used. -/
  | file (fault : RouteFile.Fault)
  /-- A declaration of the file is refused. -/
  | route (error : CompileError)
deriving DecidableEq

/-- Serves the routes of a file under its namespaces; the file is given by its bytes, if it
exists. -/
def load (s : Live) (bytes : Option (List UInt8)) : Except LoadError Live := do
  let file ← (RouteFile.read bytes).mapError .file
  return s.replace (← file.table.mapError .route)

end Live

end Routing
