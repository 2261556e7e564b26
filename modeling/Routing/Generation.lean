import Routing.Route.Render
import Routing.Table

/-!
# Generation

A path is generated from **options**; **recalled** parameters fill in what they leave out. First
both are brought into their common form: an explicit controller makes the action explicit, recalled
controller, action and id stay as long as nothing before them changed, a controller without a
leading slash is relative to the recalled one, and the action `index` is the same as none. Then the
first route, in table order, that can be rendered gives the path; or the route that a name selects.

* `Reserved` — options that select or decorate a URL and are no parameters
* `Intent` — options and recalled parameters; `Intent.normalize` brings both into their common form
* `Link`, `GenerationError`, `GenerationError.message`
* `Table.generate`, `Table.generateNamed` — the path and the parameters that it leaves over
-/

namespace Routing

/-! ## Reserved options -/

namespace Reserved

/-- Selects a route by its name. -/
def useRoute : Text := "use_route".toList

def protocol : Text := "protocol".toList

def host : Text := "host".toList

def port : Text := "port".toList

/-- What follows the number sign of a URL. -/
def anchor : Text := "anchor".toList

/-- Whether a URL begins with its path. -/
def onlyPath : Text := "only_path".toList

/-- What precedes the path of a URL. -/
def scriptName : Text := "script_name".toList

/-- Whether the path of a URL ends with a slash. -/
def trailingSlash : Text := "trailing_slash".toList

def keys : List Text :=
  [useRoute, protocol, host, port, anchor, onlyPath, scriptName, trailingSlash]

/-- The options that are parameters. -/
def strip (options : Params) : Params :=
  options.filter fun name _ => name ∉ keys

end Reserved

/-! ## Options and recalled parameters -/

/-- What is asked for, and what it falls back on. -/
structure Intent where
  options : Params
  /-- The parameters of the current request. -/
  recalled : Params
deriving DecidableEq

variable [Properties]

namespace Intent

/-- A recalled controller has the action `index` unless another one is recalled. -/
def completeRecall (x : Intent) : Intent :=
  if (Params.given? x.recalled controllerKey).isSome ∧
      (Params.given? x.recalled actionKey).isNone then
    { x with recalled := x.recalled.insert actionKey (.str indexAction) }
  else x

/-- A parameter that counts as given and has a path form becomes that text. -/
def textOption (options : Params) (name : Text) : Params :=
  match Params.givenParam? options name with
  | some t => options.insert name (.str t)
  | none => options

/-- With a controller the action is `index` unless another one is given, so that it expires too. -/
def completeOptions (x : Intent) : Intent :=
  let options :=
    if (Params.givenParam? x.options controllerKey).isSome ∧
        (Params.given? x.options actionKey).isNone then
      x.options.insert actionKey (.str indexAction)
    else x.options
  -- both are texts from here on, whatever kind of value was given
  { x with options := textOption (textOption options controllerKey) actionKey }

/-- A recalled parameter becomes an option, unless the options give it another value or the selected
route has no use for it. -/
def stickOne (selected : Option Route) (name : Text) (x : Intent) : Option Intent := do
  let kept ← Params.given? x.recalled name
  -- an option equal to the recalled value keeps the chain going; only a different one breaks it
  if (x.options.get? name).any (fun v => !v.sameParam kept) ∨
      selected.any (fun r => name ∉ r.keys) then none
  else some ⟨x.options.insert name kept, x.recalled.erase name⟩

/-- Recalled parameters become options, from the left until the first one that does not. -/
def stickAll (selected : Option Route) (x : Intent) : List Text → Intent
  | [] => x
  | name :: rest =>
    match x.stickOne selected name with
    | none => x
    | some x => x.stickAll selected rest

/-- Recalled controller, action and id stay until the first one that changed. -/
def stick (selected : Option Route) (x : Intent) : Intent :=
  x.stickAll selected [controllerKey, actionKey, idKey]

/-- A controller relative to the current one: it takes the place of as many parts at its end as it
has itself. -/
def relativeTo (current controller : Text) : Text :=
  let parts := current.splitOn '/'
  -- `count '/' + 1` is the number of parts that the new controller has itself
  ['/'].intercalate (parts.take (parts.length - (controller.count '/' + 1)) ++ [controller])

/-- A controller that differs from the recalled one and has no leading slash is relative to it. -/
def resolve (x : Intent) : Intent :=
  match Params.givenParam? x.recalled controllerKey, Params.givenParam? x.options controllerKey with
  | some current, some controller =>
    -- `controller` is the current one or absolute: there is nothing to put in front
    if controller = current ∨ controller.head? = some '/' then x
    else { x with options := x.options.insert controllerKey (.str (relativeTo current controller)) }
  -- nothing to be relative to, or no controller at all
  | _, _ => x

/-- A leading slash has told that the controller is not relative, and is dropped. -/
def stripSlash (x : Intent) : Intent :=
  match x.options.get? controllerKey with
  -- one slash only: `//a` keeps the second
  | some (.str ('/' :: controller)) =>
    { x with options := x.options.insert controllerKey (.str controller) }
  | _ => x

/-- An action of nil is `index`. -/
def nameIndex (x : Intent) : Intent :=
  if x.options.get? actionKey = some .nil then
    { x with options := x.options.insert actionKey (.str indexAction) }
  else x

/-- The action `index` is recalled rather than asked for. -/
def recallIndex (x : Intent) : Intent :=
  match x.options.get? actionKey with
  | some action =>
    if action.param? = some indexAction then
      -- moved and not dropped, so that a required component can still be rendered from the recall
      ⟨x.options.erase actionKey, x.recalled.insert actionKey action⟩
    else x
  | none => x

/-- The common form. A selected route takes controllers as they are. -/
def normalize (selected : Option Route) (x : Intent) : Intent :=
  -- what sticks depends on the filled-in actions, and what is relative on what stuck
  let x := x.completeRecall.completeOptions.stick selected
  let x := if selected.isNone then x.resolve else x
  -- the slash may go only now, after `resolve` has seen it
  x.stripSlash.nameIndex.recallIndex

end Intent

/-! ## Links -/

/-- A path and the parameters that it leaves over. -/
structure Link where
  path : Text
  extras : Params
deriving DecidableEq

/-- The names of the parameters left over, ascending. -/
def Link.extraKeys (l : Link) : List Text := l.extras.keys

/-- Why there is no link. -/
inductive GenerationError where
  /-- No route can be rendered. -/
  | noRoute (options : Params)
  /-- The selected route cannot be rendered. -/
  | violatedRequirements (name : Text) (options : Params)
  /-- No route has the name. -/
  | unknownRoute (name : Text)
  /-- A whole URL was asked for, and no host is known. -/
  | missingHost
deriving DecidableEq

def GenerationError.message : GenerationError → Text
  | noRoute options => "no route matches ".toList ++ Params.display options
  | violatedRequirements name options =>
    name ++ "_url failed to generate from ".toList ++ Params.display options ++
      ", expected requirements to be satisfied".toList
  | unknownRoute name => "no route named ".toList ++ Quoted.text name
  | missingHost =>
    "missing host to link to; set options[:host] or give the route a host".toList

namespace Route

/-- The link of a route. What does not count as given is not left over. -/
def link? (r : Route) (options recalled : Params) : Option Link :=
  (r.render? options recalled).map fun (path, pending) =>
    -- nil and `false` among the options end here: they have no place in a query
    ⟨path, pending.filter fun _ v => v.isTruthy⟩

end Route

namespace Table

/-- The link of the first significant route that can be rendered. -/
def firstLink? (x : Intent) : List Route → Option Link
  | [] => none
  | r :: rest =>
    -- a route that neither captures nor insists on anything would answer every request for a link
    if r.isSignificant then (r.link? x.options x.recalled).or (firstLink? x rest)
    else firstLink? x rest

/-- The link for options that select no route. -/
def generateAny (t : Table) (options recalled : Params) : Except GenerationError Link :=
  let x := Intent.normalize none ⟨options, recalled⟩
  match firstLink? x t.routes with
  | some link => .ok link
  | none => .error (.noRoute options)

/-- The link of the route registered under a name. Its defaults lie under the recalled
parameters. -/
def generateSelected (t : Table) (name : Text) (options recalled : Params) :
    Except GenerationError Link :=
  match t.named? name with
  | none => .error (.unknownRoute name)
  | some r =>
    let x := Intent.normalize (some r) ⟨options, recalled⟩
    -- the name is enough: the options need not repeat the defaults that the route insists on
    match r.link? x.options (r.defaults.overlay x.recalled) with
    | some link => .ok link
    | none => .error (.violatedRequirements name options)

/-- The link of the route registered under a name. -/
def generateNamed (t : Table) (name : Text) (options recalled : Params) :
    Except GenerationError Link :=
  t.generateSelected name (Reserved.strip options) recalled

/-- The link for options and recalled parameters. The option `use_route` selects a route. -/
def generate (t : Table) (options recalled : Params) : Except GenerationError Link :=
  match Params.givenParam? options Reserved.useRoute with
  | some name => t.generateSelected name (Reserved.strip options) recalled
  | none => t.generateAny (Reserved.strip options) recalled

end Table

end Routing
