import Routing.Route

/-!
# Rendering a route

A route is rendered for **options**, the parameters asked for, and falls back on **recalled** ones,
those of the current request. The required components come first; then the optional tail, as far as
the options ask for it. What a route renders it consumes: the options that are left over go into the
query string.

* `Rendering.value?` — the value of a capture: given, recalled or the default
* `Rendering.capture?` — its escaped text, unless the requirement rejects it
* `Rendering.tail` — the optional tail: a level appears when the options mention it or a deeper one,
  and a level that would only repeat a default disappears when nothing deeper appears
* `Route.render?` — the path and the options left over
-/

namespace Routing

variable [Properties]

/-- A route, and the options laid over the recalled parameters. -/
structure Rendering where
  route : Route
  /-- The options laid over the recalled parameters. -/
  merged : Params

/-- One nesting level of the optional tail. -/
inductive Level where
  /-- A component, after a slash. -/
  | component (segment : Segment)
  /-- A format, after a dot. -/
  | format (name : Text)
deriving DecidableEq

namespace Level

def names : Level → List Text
  | component s => s.names
  | format name => [name]

/-- What stands before the level in a path. -/
def separator : Level → Char
  | component _ => '/'
  | format _ => '.'

end Level

namespace Rendering

/-! ## Captures -/

/-- The value of a parameter: the merged one, or else the default, as long as it counts as given. -/
def value? (x : Rendering) (name : Text) : Option Value :=
  (Params.given? x.merged name).or (Params.given? x.route.defaults name)

/-- Whether a text can stand for a capture: it meets the requirement, or else it is not empty and,
but for a glob, has neither a slash nor a dot. -/
def admits (x : Rendering) (name raw : Text) (glob : Bool) : Bool :=
  match x.route.requirements.get? name with
  | some requirement => requirement.accepts raw
  -- the built-in grammars, checked by hand: no expression was compiled for them alone
  | none => !raw.isEmpty && (glob || raw.all fun c => c ≠ '/' && c ≠ '.')

/-- The text of a value in a path. A controller stands as it is, a list item by item, and any other
value part by part. -/
def escaped (name : Text) (value : Value) (raw : Text) : Text :=
  if name = controllerKey then raw
  else match value with
    -- an item may hold a slash of its own, which must not become a separator
    | .list items => ['/'].intercalate ((items.filterMap Value.param?).map Path.escape)
    -- a slash in any other value separates components
    | _ => Path.escapeParts raw

/-- The text of a capture, when there is a value and it is admitted. -/
def capture? (x : Rendering) (name : Text) (glob : Bool) : Option Text := do
  let value ← x.value? name
  let raw ← value.param?
  -- the requirement is met by the raw text; escaping comes last
  if x.admits name raw glob then some (escaped name value raw) else none

/-! ## Segments -/

def pieces? (x : Rendering) : List Piece → Option Text
  | [] => some []
  | .literal t :: rest => (x.pieces? rest).map (t ++ ·)
  | .capture name :: rest => do
    let t ← x.capture? name false
    return t ++ (← x.pieces? rest)

def segment? (x : Rendering) : Segment → Option Text
  | .static t => some t
  | .capture name _ => x.capture? name false
  | .format name => x.capture? name false
  | .glob name => x.capture? name true
  | .compound pieces => x.pieces? pieces

/-- The required components, each after a slash. -/
def required? (x : Rendering) : List Segment → Option Text
  | [] => some []
  | s :: rest => do
    -- one component that cannot be rendered takes the whole route out
    let t ← x.segment? s
    return '/' :: t ++ (← x.required? rest)

/-! ## The optional tail -/

def level? (x : Rendering) : Level → Option Text
  | .component s => x.segment? s
  | .format name => x.capture? name false

/-- Whether every capture of the level has the value of its default. -/
def isDefault (x : Rendering) (level : Level) : Bool :=
  level.names.all fun name =>
    match x.route.defaults.get? name with
    -- a capture without a default never repeats one, so its level stays
    | none => false
    | some default => Value.paramOf? (x.value? name) = default.param?

/-- Without the parameters of a list. -/
def without (params : Params) (names : List Text) : Params :=
  names.foldl (fun p name => p.erase name) params

/-- The text of the levels that appear, from the outermost in, and the options still pending. -/
def tail (x : Rendering) (pending : Params) : List Level → Option Text × Params
  | [] => (none, pending)
  | level :: rest =>
    -- no option asks for this level or a deeper one: recalled values alone do not bring it out
    if ((level :: rest).flatMap Level.names).all fun name => !pending.contains name then
      (none, pending)
    else match x.level? level with
      -- the levels nest, so nothing deeper can appear without this one
      | none => (none, pending)
      | some text =>
        let (deeper, pending) := x.tail pending rest
        -- consumed even when the level is left out below: its value is that of the default
        let pending := without pending level.names
        match deeper with
        -- only a level with nothing behind it may hide
        | none => (if x.isDefault level then none else some (level.separator :: text), pending)
        | some deeper => (some (level.separator :: text ++ deeper), pending)

end Rendering

namespace Route

/-- Whether the merged parameters have the value of every default that is not captured. -/
def meetsDefaults (r : Route) (merged : Params) : Bool :=
  r.requiredDefaults.entries.all fun (name, default) =>
    Value.paramOf? (merged.get? name) = default.param?

/-- Without the parameters that have the value of their default. -/
def dropDefaults (r : Route) (params : Params) : Params :=
  params.filter fun name v =>
    match r.defaults.get? name with
    | none => true
    | some default => !default.sameParam v

/-- The path for options and recalled parameters, and the options that it leaves over. -/
def render? (r : Route) (options recalled : Params) : Option (Text × Params) := do
  let x : Rendering := ⟨r, recalled.overlay options⟩
  if !r.meetsDefaults x.merged then none
  else
    let (components, format?) := splitFormat r.segments
    let required := components.takeWhile fun s => !s.isOptional
    let optional := components.dropWhile fun s => !s.isOptional
    let start ← x.required? required
    -- the format is the innermost level: it appears only after every component has
    let levels := optional.map Level.component ++ format?.toList.map Level.format
    let (deeper, pending) := x.tail options levels
    let path := start ++ deeper.getD []
    -- the levels have taken theirs; here go the names of the required components
    let pending := Rendering.without pending (segmentNames required)
    -- no component at all, or none that appears
    return (if path.isEmpty then ['/'] else path, r.dropDefaults pending)

end Route

end Routing
