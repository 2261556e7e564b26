import Routing.Requirement
import Routing.Value

/-!
# Route declarations

A declaration is a route as its author writes it: a pattern and a name, either of which a prefix may
extend, defaults, requirements, accepted methods and a host. Nothing in it has been checked.

* `Declaration.fullPath`, `Declaration.fullName` — the pattern and the name with their prefixes
-/

namespace Routing

structure Declaration where
  path : Text
  name : Option Text
  namePrefix : Option Text
  pathPrefix : Option Text
  /-- Values of parameters that the path does not give. -/
  defaults : Params
  requirements : Dict Requirement.Source
  /-- Tokens of the accepted methods. -/
  methods : List Text
  /-- The host that requests must be addressed to. -/
  host : Option Text
deriving DecidableEq

namespace Declaration

/-- The declaration that says nothing. -/
def blank : Declaration := ⟨[], none, none, none, .empty, .empty, [], none⟩

/-- The named route of the root path. -/
def root : Declaration := { blank with name := some "root".toList }

/-- The pattern with its prefix. A prefix of slashes alone changes nothing. -/
def fullPath (d : Declaration) : Text :=
  match (d.pathPrefix.getD []).trim (· = '/') with
  | [] => d.path
  | before => before ++ ['/'] ++ d.path.dropWhile (· = '/')

/-- The name with its prefix. -/
def fullName (d : Declaration) : Option Text :=
  d.name.map fun name => d.namePrefix.getD [] ++ name

end Declaration

end Routing
