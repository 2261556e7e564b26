import Routing.Namespaces
import Routing.Route

/-!
# Route tables

A table keeps compiled routes in the order in which they were added, which is the only precedence
between them, and an index from names to places in that order. A name that is registered again
points at the newer route; the older one stays in its place.

* `Table.add` — compiles a declaration against the table's namespaces and appends the route
* `Table.append`, `Table.clear`, `Table.addNamespace`
* `Table.draw` — a table of declarations in place of the old routes, or the first error
* `Table.named?`, `Table.names` — the index
-/

namespace Routing

variable [Properties]

/-- Routes in order, their names, and the namespaces that later routes are compiled against. -/
structure Table where
  /-- The routes, the first added first. -/
  routes : List Route
  /-- The place of the latest route of each name. -/
  index : Dict Nat
  namespaces : Namespaces
deriving DecidableEq

namespace Table

def ofNamespaces (n : Namespaces) : Table := ⟨[], .empty, n⟩

/-- A table without routes and namespaces. -/
def empty : Table := ofNamespaces .empty

/-- Registers a namespace for the routes added from now on. -/
def addNamespace (t : Table) (name : Text) : Bool × Table :=
  let (isNew, n) := t.namespaces.insert name
  (isNew, { t with namespaces := n })

/-- Appends a compiled route, which takes over its name. -/
def append (t : Table) (r : Route) : Table :=
  { t with
    routes := t.routes ++ [r]
    -- the place of the new route is the number of the routes before it
    index := match r.name with
      | some name => t.index.insert name t.routes.length
      | none => t.index }

/-- The requirement on controllers under the table's namespaces, which keep it. -/
def controllerRequirement (t : Table) : Except CompileError (Requirement × Table) := do
  -- reported under the name that the requirement has in every route
  let (r, n) ← t.namespaces.requirement.mapError
    (.requirement controllerKey t.namespaces.source)
  return (r, { t with namespaces := n })

/-- Compiles a declaration and appends the route. The table also comes back when the declaration is
refused; it has the same routes, then, but may keep the requirement on controllers. -/
def add (t : Table) (d : Declaration) : Except CompileError Route × Table :=
  match t.controllerRequirement with
  | .error e => (.error e, t)
  | .ok (controller, t) =>
    match Route.compile d controller with
    -- this `t` keeps the requirement that was just compiled
    | .error e => (.error e, t)
    | .ok r => (.ok r, t.append r)

/-- Discards every route and the index. -/
def clear (t : Table) : Table := ofNamespaces t.namespaces.forget

/-- Adds declarations in turn; the first that is refused ends it. -/
def addAll (t : Table) : List Declaration → Except CompileError Table
  | [] => .ok t
  | d :: rest =>
    match t.add d with
    | (.error e, _) => .error e
    | (.ok _, t) => t.addAll rest

/-- The table of a list of declarations, under the same namespaces. -/
def draw (t : Table) (declarations : List Declaration) : Except CompileError Table :=
  -- from an empty table: names of the old routes are free again
  (ofNamespaces t.namespaces.forget).addAll declarations

def named? (t : Table) (name : Text) : Option Route :=
  -- places are never out of range: routes are only appended
  (t.index.get? name).bind fun i => t.routes[i]?

def names (t : Table) : List Text := t.index.keys

end Table

end Routing
