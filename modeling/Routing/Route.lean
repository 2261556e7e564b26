import Routing.CompileError
import Routing.Declaration
import Routing.Route.Matcher
import Routing.Template

/-!
# Compiled routes

A declaration is compiled against the requirement on controllers, and everything that recognition
and generation ask of it is worked out then.

* `Route.normalizeDefaults` — numbers become texts, and a controller brings an action
* `Route.compile` — a declaration as a route, or why it is none; of several faults the first of
  methods, requirements, template, glob default and whole expression is told
* `Route.match?` — the parameters of a decoded path: the defaults, overlaid with what was captured
-/

namespace Routing

variable [Properties]

structure Route where
  name : Option Text
  pattern : Text
  /-- The segments of the template. -/
  segments : List Segment
  /-- The requirements, one on the controller among them. -/
  requirements : Dict Requirement
  defaults : Params
  condition : MethodCondition
  /-- The host that requests must be addressed to. -/
  host : Option Text
  /-- The captured parameters, in the order of the segments. -/
  keys : List Text
  /-- The defaults of parameters that are not captured. -/
  requiredDefaults : Params
  /-- The expression that whole paths match. -/
  matcher : Regex
  /-- The parameters captured by the groups of the expression, in the order of their numbers. -/
  groups : List Text
deriving DecidableEq

namespace Route

/-! ## Compilation -/

/-- A number becomes its digits. -/
def defaultValue : Value → Value
  | .int i => .str (Text.ofInt i)
  | v => v

/-- Numbers become texts. With a controller, it and the action become texts too, and the action is
`index` unless another one is given. -/
def normalizeDefaults (defaults : Params) : Params :=
  let defaults := defaults.map fun _ v => defaultValue v
  match Value.paramOf? (defaults.get? controllerKey) with
  -- without a controller an action is left as written: it may be a value of any kind
  | none => defaults
  | some controller =>
    -- nil has no path form either, so a nil action is `index` too
    let action := (Value.paramOf? (defaults.get? actionKey)).getD indexAction
    (defaults.insert controllerKey (.str controller)).insert actionKey (.str action)

/-- Compiles the requirements in the order of their names, and adds the one on controllers unless
there is one already. -/
def compileRequirements (sources : Dict Requirement.Source) (controller : Requirement) :
    Except CompileError (Dict Requirement) := do
  let requirements ← sources.mapExcept fun name source =>
    (Requirement.compile source).mapError (.requirement name source.pattern)
  -- a requirement on the controller written in the declaration goes before the common one
  return if requirements.contains controllerKey then requirements
    else requirements.insert controllerKey controller

/-- A glob has no default; a blank one is dropped. -/
def dropGlobDefault (defaults : Params) : List Segment → Except CompileError Params
  | [] => .ok defaults
  | .glob name :: rest =>
    match defaults.get? name with
    | none => dropGlobDefault defaults rest
    | some v =>
      -- blank says that the glob may be empty, which a glob never is
      if v.isBlank then dropGlobDefault (defaults.erase name) rest
      else .error (.globDefault name)
  | _ :: rest => dropGlobDefault defaults rest

/-- The parameters with a requirement and no default. -/
def requiredNames (requirements : Dict Requirement) (defaults : Params) : List Text :=
  requirements.keys.filter fun name => !defaults.contains name

/-- Compiles a declaration; `controller` is the requirement on controllers where it has none of its
own. -/
def compile (d : Declaration) (controller : Requirement) : Except CompileError Route := do
  -- the order of the steps is the order in which faults are told
  let condition ← (MethodCondition.ofTokens d.methods).mapError .method
  let requirements ← compileRequirements d.requirements controller
  let defaults := normalizeDefaults d.defaults
  let (segments, defaults) ←
    (Template.read d.fullPath defaults (requiredNames requirements defaults)).mapError
      (.template d.fullPath)
  -- only the segments tell which captures are globs
  let defaults ← dropGlobDefault defaults segments
  let keys := segmentNames segments
  let expression := Matcher.ofSegments requirements segments
  -- each requirement compiles alone by now; together they may still be too large, or name two
  -- groups alike
  let matcher ← (Regex.compile expression.source).mapError (.matcher d.fullPath)
  return {
    name := d.fullName
    pattern := d.fullPath
    segments, requirements, defaults, condition
    host := d.host
    keys
    requiredDefaults := defaults.filter fun name _ => name ∉ keys
    matcher
    groups := expression.keys }

/-! ## Properties -/

/-- Whether generation can tell the route from others: it captures something, or insists on a
default. -/
def isSignificant (r : Route) : Bool :=
  !r.keys.isEmpty || !r.requiredDefaults.isEmpty

/-- Whether a parameter is the glob at the end. -/
def isGlob (r : Route) (name : Text) : Bool :=
  -- a glob is always the last segment
  r.segments.getLast? = some (.glob name)

/-! ## Matching -/

/-- The value of a captured text: for a glob the list of its parts, otherwise the text, with the
characters back for which placeholders stand. -/
def capturedValue (r : Route) (name text : Text) : Value :=
  if r.isGlob name then .list ((text.splitOn '/').map fun part => .str (Path.restore part))
  else .str (Path.restore text)

/-- The captured parameters laid over `params`, in the order of the groups; `n` is the number of the
first of them. -/
def overlayGroups (r : Route) (bound : List (Text × Text)) (params : Params) (n : Nat) :
    List Text → Params
  | [] => params
  | key :: rest =>
    -- a group without part in the match leaves the default in place
    let params := match Dict.lookup (Matcher.groupName n) bound with
      | none => params
      | some text => params.insert key (r.capturedValue key text)
    overlayGroups r bound params (n + 1) rest

/-- The parameters of a decoded path that the route describes. None of them is nil. -/
def match? (r : Route) (path : Text) : Option Params :=
  (r.matcher.match? path).map fun bound =>
    -- nil defaults have only marked captures as optional
    (r.overlayGroups bound r.defaults 0 r.groups).filter fun _ v => !v.isNil

end Route

end Routing
