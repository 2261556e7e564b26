import Routing.Requirement
import Routing.Dict
import Routing.Text.Utf8

/-!
# Controller namespaces

Controllers may live in namespaces (`admin`, `api/v1`, …). The known namespaces decide what a
`controller` capture may hold: a bare controller name, or a known namespace, a slash and such a
name. The requirement that says so is compiled when it is first asked for and kept until the
namespaces change.

* `Namespaces.insert`, `Namespaces.contains` — surrounding slashes do not count
* `Namespaces.source` — the expression for controllers, longer alternatives first, so that the
  longest known namespace is preferred
* `Namespaces.requirement` — the requirement, with the namespaces that now keep it
-/

namespace Routing

variable [Properties]

structure Namespaces where
  /-- The names, as the keys of a dictionary. -/
  known : Dict Unit
  /-- The requirement on controllers, once it has been compiled. -/
  kept : Option Requirement
deriving DecidableEq

namespace Namespaces

def empty : Namespaces := ⟨.empty, none⟩

def names (n : Namespaces) : List Text := n.known.keys

/-- The same namespaces, with no requirement kept. -/
def forget (n : Namespaces) : Namespaces := { n with kept := none }

/-- The name without slashes at its ends. -/
def bare (name : Text) : Text := name.trim (· = '/')

/-- Adds a namespace. The answer tells whether it is new; a blank name is not. -/
def insert (n : Namespaces) (name : Text) : Bool × Namespaces :=
  -- slashes at the ends would stand next to those of the expression
  let name := bare name
  if name.isEmpty || n.known.contains name then (false, n)
  -- the requirement does not allow the new namespace, and is compiled anew when asked for
  else (true, { known := n.known.insert name (), kept := none })

def contains (n : Namespaces) (name : Text) : Bool :=
  n.known.contains (bare name)

def ofList (names : List Text) : Namespaces :=
  names.foldl (fun n name => (n.insert name).2) empty

/-! ## The requirement on controllers -/

def controllerName : Text := "[_a-zA-Z0-9]+".toList

/-- The expression for the controllers of a namespace. -/
def alternative (name : Text) : Text :=
  Regex.quote name ++ ['/'] ++ controllerName

/-- Whether `a` stands before `b` among the alternatives, or is `b`: the longer text first, of texts
of one length the greater. -/
def standsBefore (a b : Text) : Bool :=
  Utf8.size b < Utf8.size a || (Utf8.size b = Utf8.size a && !(a < b))

/-- The expression for controllers: each namespace with a controller name, and the controller name
alone. -/
def source (n : Namespaces) : Text :=
  -- an earlier alternative is preferred: of two that fit, the longer must come first
  ['|'].intercalate ((n.names.map alternative ++ [controllerName]).mergeSort standsBefore)

/-- The requirement on controllers, kept from now on. -/
def requirement (n : Namespaces) : Except Requirement.Fault (Requirement × Namespaces) :=
  match n.kept with
  | some r => .ok (r, n)
  | none => do
    let r ← Requirement.compile (.plain n.source)
    -- a refusal is not kept: it is found again at the next request
    return (r, { n with kept := some r })

end Namespaces

end Routing
