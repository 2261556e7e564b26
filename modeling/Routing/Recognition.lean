import Routing.Table
import Routing.Text.Quoted

/-!
# Recognition

A request is recognised by the first route whose host and path fit, which yields a controller, and
which accepts the method. The path is made canonical and decoded before the routes see it.

* `Request`, `RecognitionError`, `RecognitionError.message`
* `Table.recognize` — the parameters of a request; when only the method was in the way, the methods
  that would be accepted are told
-/

namespace Routing

structure Request where
  /-- The request target; a query in it is ignored. -/
  path : Text
  /-- The method, when it matters. -/
  method : Option Method
  /-- The host, when it is known. -/
  host : Option Text
deriving DecidableEq

/-- Why a request is not recognised. -/
inductive RecognitionError where
  | notFound (path : Text)
  /-- Routes fit, but none of them accepts the method. -/
  | methodNotAllowed (path : Text) (method : Method) (allowed : List Method)
  /-- The token names no method. -/
  | unknownMethod (token : Text)
deriving DecidableEq

def RecognitionError.message : RecognitionError → Text
  | notFound path => "no route matches ".toList ++ Quoted.text path
  | methodNotAllowed path method allowed =>
    "no route matches ".toList ++ Quoted.text path ++ " with ".toList ++ method.token ++
      "; allowed: ".toList ++ ", ".toList.intercalate (allowed.map Method.token)
  | unknownMethod token => "unknown HTTP method ".toList ++ Quoted.text token

variable [Properties]

namespace Route

/-- Whether the route takes requests to a host. A route without a host takes all, and a request
without a host may go to any route. -/
def admitsHost (r : Route) (host : Option Text) : Bool :=
  match r.host, host with
  -- host names are the same in either case
  | some expected, some actual => expected.sameLetters actual
  | _, _ => true

/-- The parameters of a decoded path under a route that admits the host and yields a controller,
whatever the method. -/
def candidate? (r : Route) (host : Option Text) (decoded : Text) : Option Params :=
  if r.admitsHost host then
    -- a fitting route without a controller is passed over, as if it did not fit
    (r.match? decoded).filter fun params => (Params.given? params controllerKey).isSome
  else none

/-- Whether the route accepts a method; a request without one is accepted. -/
def accepts (r : Route) (method : Option Method) : Bool :=
  method.all r.condition.allows

end Route

namespace Recognition

/-- The action is `index` unless the path or a default gives another. -/
def complete (params : Params) : Params :=
  -- a parameter that is there is kept, whatever its value
  if params.contains actionKey then params else params.insert actionKey (.str indexAction)

/-- The parameters under the first candidate that accepts the method, or the methods that the
candidates accept, after those found so far. -/
def among (method : Option Method) (host : Option Text) (decoded : Text) (found : List Method) :
    List Route → Except (List Method) Params
  | [] => .error found
  | r :: rest =>
    match r.candidate? host decoded with
    -- the route does not fit, so what it accepts is not told
    | none => among method host decoded found rest
    | some params =>
      if r.accepts method then .ok (complete params)
      -- the path is known; remember what would have been accepted
      else among method host decoded (found ++ r.condition.methods) rest

/-- The methods of a list in their common order, each once. -/
def sorted (methods : List Method) : List Method :=
  Method.all.filter (· ∈ methods)

end Recognition

namespace Table

/-- The parameters of a request. -/
def recognize (t : Table) (request : Request) : Except RecognitionError Params :=
  let path := Path.normalize request.path
  match Recognition.among request.method request.host (Path.decode path) [] t.routes with
  | .ok params => .ok params
  | .error found =>
    match request.method, found with
    -- the path fits some route, so only the method was in the way
    | some method, _ :: _ => .error (.methodNotAllowed path method (Recognition.sorted found))
    -- no candidate at all: without a method none is refused
    | _, _ => .error (.notFound path)

/-- The parameters of a path, whatever the method and the host. -/
def recognizePath (t : Table) (path : Text) : Except RecognitionError Params :=
  t.recognize ⟨path, none, none⟩

/-- The parameters of a request whose method is given as a token. -/
def recognizeToken (t : Table) (path : Text) (token host : Option Text) :
    Except RecognitionError Params :=
  match token with
  | none => t.recognize ⟨path, none, host⟩
  | some token =>
    match Method.ofToken? token with
    | none => .error (.unknownMethod token)
    | some method => t.recognize ⟨path, some method, host⟩

end Table

end Routing
