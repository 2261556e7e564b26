import Routing.Url

/-!
# Named routes

A name that a table has registered gives a handle on its route, from which options, paths and URLs
are made. Values may be given by position; they are bound to the captures in the order of the
template.

* `Table.handle?`, `Table.handles` — the handle of a name, and all handles in the order of names
* `NamedRoute.hashFor` — the options that select the route
* `NamedRoute.optionsFor` — the same with positional values bound
* `NamedRoute.path`, `NamedRoute.url`
-/

namespace Routing

variable [Properties]

/-- A name and the route registered under it. -/
structure NamedRoute where
  name : Text
  route : Route
deriving DecidableEq

def Table.handle? (t : Table) (name : Text) : Option NamedRoute := do
  let route ← t.named? name
  return ⟨← route.name, route⟩

/-- The handles of all names, in their order. -/
def Table.handles (t : Table) : List NamedRoute :=
  t.names.filterMap t.handle?

namespace NamedRoute

/-- The options that select the route: its defaults and, over them, the arguments. -/
def hashFor (r : NamedRoute) (args : Params) (onlyPath : Bool) : Params :=
  -- the options that select come last: neither a default nor an argument can replace them
  (((r.route.defaults.filter fun _ v => !v.isNil).overlay args).insert
    Reserved.useRoute (.str r.name)).insert Reserved.onlyPath (.bool onlyPath)

/-- Binds values to names in turn. -/
def bind (options : Params) (names : List Text) (values : List Value) : Params :=
  options.insertAll (names.zip values)

/-- The options with positional values bound to captures. When at least two values are missing, the
captures that have a value already are passed over; a single missing value may be that of a format
at the end. -/
def optionsFor (r : NamedRoute) (positional : List Value) (args : Params) (onlyPath : Bool) :
    Params :=
  let options := r.hashFor args onlyPath
  -- defaults are among the options by now, so a capture with a default counts as having a value
  if positional.length + 1 < r.route.keys.length then
    bind options (r.route.keys.filter fun k => !options.contains k) positional
  else bind options r.route.keys positional

/-- The path for positional values, arguments and recalled parameters. -/
def path (r : NamedRoute) (t : Table) (positional : List Value) (args recalled : Params) :
    Except GenerationError Text :=
  t.urlFor (r.optionsFor positional args true) recalled

/-- The URL for positional values, arguments and recalled parameters. The host comes from the
arguments, or else from the route. -/
def url (r : NamedRoute) (t : Table) (positional : List Value) (args recalled : Params) :
    Except GenerationError Text :=
  let options := r.optionsFor positional args false
  -- a host that was given goes before that of the route
  if (Params.given? options Reserved.host).isSome then t.urlFor options recalled
  else match r.route.host with
    | none => .error .missingHost
    | some host => t.urlFor (options.insert Reserved.host (.str host)) recalled

end NamedRoute

end Routing
