import Routing.Decimal.Shortest
import Routing.Table
import Routing.Toml.Document

/-!
# Route files

A route file is a document with known namespaces and route declarations in their order. A missing
file and a blank one declare nothing. Names that mean nothing here are passed over; a value of the
wrong kind makes the whole file malformed.

* `RouteFile`, `RouteFile.read` — the file, from its bytes
* `RouteFile.table` — the table of its declarations
* `Value.ofToml?` — the parameter value of a value of the document
-/

namespace Routing

/-! ## Parameter values -/

namespace Value

mutual

/-- The parameter value of a value of the document. Fractions and moments are kept as texts. -/
def ofToml? : Toml.Value → Option Value
  | .string s => some (str s)
  | .integer i => some (int i)
  | .float x => some (str x.text)
  | .boolean b => some (bool b)
  | .moment m => some (str m.text)
  | .array items => (ofItems? items).map list
  | .table ((name, v) :: rest) =>
    -- a moment may also be written as a table with the reserved name in front
    if name = Toml.momentName then do
      return str (← Toml.Moment.ofText? (← v.text?)).text
    else do
      let first ← ofToml? v
      let others ← ofEntries? rest
      return map (Dict.ofList ((name, first) :: others)).entries
  | .table [] => some (map [])

/-- The parameter values of the items of an array. -/
def ofItems? : List Toml.Value → Option (List Value)
  | [] => some []
  | v :: vs => do
    let first ← ofToml? v
    return first :: (← ofItems? vs)

/-- The parameter values of the entries of a table. -/
def ofEntries? : List (Text × Toml.Value) → Option (List (Text × Value))
  | [] => some []
  | (name, v) :: es => do
    let first ← ofToml? v
    return (name, first) :: (← ofEntries? es)

end

end Value

/-! ## Files -/

structure RouteFile where
  namespaces : List Text
  routes : List Declaration
deriving DecidableEq

namespace RouteFile

/-- Why a file cannot be used. -/
inductive Fault where
  /-- Its bytes are no text. -/
  | unreadable
  /-- Its text is no document of the expected kind. -/
  | malformed
deriving DecidableEq

def Fault.message : Fault → Text
  | unreadable => "Failed to read routes file".toList
  | malformed => "Failed to parse routes file".toList

def empty : RouteFile := ⟨[], []⟩

/-- What a field of a table holds; `missing` where the table has no such field. -/
def field {α : Type} (entries : List (Text × Toml.Value)) (name : String) (missing : α)
    (read : Toml.Value → Option α) : Option α :=
  match entries.find? fun e => e.1 = name.toList with
  | none => some missing
  | some (_, v) => read v

def defaults? (v : Toml.Value) : Option Params := do
  return .ofList (← Value.ofEntries? (← v.entries?))

/-- The requirements of a declaration: expressions, or literals with option letters. -/
def requirements? (v : Toml.Value) : Option (Dict Requirement.Source) := do
  let sources ← (← v.entries?).mapM fun (name, v) => do
    return (name, Requirement.Source.ofLiteral (← v.text?))
  return .ofList sources

/-- The fields of a declaration, in the order in which an array without names gives them. -/
def fieldNames : List Text :=
  ["path", "name", "name_prefix", "path_prefix", "defaults", "absent", "requirements", "methods",
    "host"].map String.toList

/-- The fields of a declaration by their names. -/
def fields? : Toml.Value → Option (List (Text × Toml.Value))
  -- names are not needed then: the place tells the field
  | .array items => some (fieldNames.zip items)
  | v => v.entries?

/-- The declaration that a value of the document writes. The names in `absent` have nil as their
default, whatever `defaults` says. -/
def declaration? (v : Toml.Value) : Option Declaration := do
  let fields ← fields? v
  let absent ← field fields "absent" [] Toml.Value.texts?
  let defaults ← field fields "defaults" .empty defaults?
  return {
    path := ← field fields "path" [] Toml.Value.text?
    name := ← field fields "name" none fun v => v.text?.map some
    namePrefix := ← field fields "name_prefix" none fun v => v.text?.map some
    pathPrefix := ← field fields "path_prefix" none fun v => v.text?.map some
    -- nil cannot be written in a document, so it has a list of its own
    defaults := defaults.insertAll (absent.map (·, .nil))
    requirements := ← field fields "requirements" .empty requirements?
    methods := ← field fields "methods" [] Toml.Value.texts?
    host := ← field fields "host" none fun v => v.text?.map some }

def declarations? : Toml.Value → Option (List Declaration)
  | .array items => items.mapM declaration?
  | _ => none

/-- The file that a document is. -/
def ofDocument? (entries : List (Text × Toml.Value)) : Option RouteFile := do
  return {
    namespaces := ← field entries "namespaces" [] Toml.Value.texts?
    routes := ← field entries "routes" [] declarations? }

def ofText? (s : Text) : Option RouteFile :=
  -- blanks other than spaces and line breaks would be no document
  if s.all isBlank then some empty
  else (Toml.Document.read s).bind ofDocument?

/-- The file of its bytes; there are none when it does not exist. -/
def read : Option (List UInt8) → Except Fault RouteFile
  | none => .ok empty
  | some bytes =>
    match Utf8.decode? bytes with
    | none => .error .unreadable
    | some s =>
      match ofText? s with
      | none => .error .malformed
      | some file => .ok file

/-- The table of the declarations, in their order. -/
def table [Properties] (f : RouteFile) : Except CompileError Table :=
  (Table.ofNamespaces (.ofList f.namespaces)).addAll f.routes

end RouteFile

end Routing
