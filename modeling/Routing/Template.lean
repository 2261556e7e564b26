import Routing.Path
import Routing.Template.Component
import Routing.Value

/-!
# Templates

A template is read from a pattern in two steps: the components are read from left to right, and then
the **optional tail** is found from right to left. A capture belongs to the tail when everything to
its right does, no requirement without a default insists on it, and it may be left out: because it
is one of `controller`, `action` and `id`, or because it has a default.

* `Template.components` — the components of a pattern, with distinct capture names
* `Template.arrange` — the segments, with the optional tail marked, and the defaults that remain
* `Template.read` — both steps
-/

namespace Routing

/-! ## Names with a meaning of their own -/

def controllerKey : Text := "controller".toList

def actionKey : Text := "action".toList

def idKey : Text := "id".toList

/-- The action that is meant when none is named. -/
def indexAction : Text := "index".toList

namespace Template

/-! ## Components -/

/-- The first name that occurs among `seen` or earlier in the list. -/
def repeated? (seen : List Text) : List Text → Option Text
  | [] => none
  | name :: rest => if name ∈ seen then some name else repeated? (seen ++ [name]) rest

/-- Reads components from the left; `seen` are the capture names so far. -/
def readComponents (seen : List Text) : List Text → Except TemplateFault (List Component)
  | [] => .ok []
  | s :: rest => do
    -- faults of a component go before a name that occurs twice
    let c ← Component.read rest.isEmpty s
    -- one component may capture twice, too
    match repeated? seen c.names with
    | some name => .error (.captureTwice name)
    | none => return c :: (← readComponents (seen ++ c.names) rest)

def components (pattern : Text) : Except TemplateFault (List Component) :=
  readComponents [] (Path.components pattern)

/-! ## The optional tail -/

/-- Captures that may be left out even without a default. -/
def mayBeLeftOut (name : Text) : Bool :=
  name = controllerKey || name = actionKey || name = idKey

/-- The segments at the right end of a template. -/
structure Tail where
  segments : List Segment
  /-- Whether all of them are optional. -/
  optional : Bool
  /-- Whether a capture of the action is among them. -/
  hasAction : Bool
  defaults : Params

namespace Tail

def nil (defaults : Params) : Tail := ⟨[], true, false, defaults⟩

/-- A segment that cannot be missing stands before the tail. -/
def require (t : Tail) (s : Segment) : Tail :=
  { t with segments := s :: t.segments, optional := false }

/-- Whether a capture before the tail can be left out with it. An `id` before an `action` cannot. -/
def admits (t : Tail) (name : Text) : Bool :=
  t.optional && !(name = idKey && t.hasAction) && (mayBeLeftOut name || t.defaults.contains name)

/-- A capture that no requirement insists on stands before the tail. A default of nil has only told
that the capture may be left out, and is dropped. -/
def capture (t : Tail) (name : Text) : Tail where
  segments := .capture name (t.admits name) :: t.segments
  optional := t.admits name
  hasAction := t.hasAction || name = actionKey
  defaults :=
    -- `controller`, `action` and `id` are optional anyway, so a nil default of theirs was no mark
    if t.admits name ∧ !mayBeLeftOut name ∧ t.defaults.get? name = some .nil then
      t.defaults.erase name
    else t.defaults

/-- A format stands before the tail. -/
def format (t : Tail) : Tail :=
  { t with segments := .format Component.formatName :: t.segments }

/-- A component stands before the tail; `required` are the captures that must be present. -/
def cons (required : List Text) (c : Component) (t : Tail) : Tail :=
  -- the suffix stands to the right of its component, so it comes first on the way left
  let t := if c.format then t.format else t
  match c.kind with
  | .static text => t.require (.static text)
  | .capture name =>
    -- a requirement without a default: the capture must be there, and all before it
    if name ∈ required then t.require (.capture name false) else t.capture name
  | .glob name => t.require (.glob name)
  | .compound pieces => t.require (.compound pieces)

end Tail

/-- The segments of components and the defaults that remain. -/
def arrange (required : List Text) (defaults : Params) (components : List Component) : Tail :=
  components.foldr (Tail.cons required) (.nil defaults)

/-- The template of a pattern and the defaults that remain. -/
def read (pattern : Text) (defaults : Params) (required : List Text) :
    Except TemplateFault (List Segment × Params) := do
  let tail := arrange required defaults (← components pattern)
  return (tail.segments, tail.defaults)

end Template

end Routing
