import Routing.Text.Percent
import Routing.Value

/-!
# Query strings

Parameters are written as pairs `key=value` between ampersands, in form encoding: letters, digits
and `-._~` stand for themselves, a space is a plus sign, and everything else is percent-encoded. A
list repeats its key with `[]`, a map extends it with the inner name in brackets; what has no path
form is left out. Pairs of a map, and those at the top, are sorted as texts.

* `Query.encode` — form encoding
* `Query.pairs` — the pairs of one parameter; `Query.ofParams` — the query string
-/

namespace Routing.Query

/-- The characters that stand for themselves. -/
def isUnreserved (c : Char) : Bool :=
  c.isAlphanum || "-._~".toList.contains c

/-- Form encoding. -/
def encode (s : Text) : Text :=
  s.flatMap fun c =>
    if c = ' ' then ['+'] else if isUnreserved c then [c] else Percent.groups c

def pair (key value : Text) : Text :=
  encode key ++ ['='] ++ encode value

/-- Texts in their order, with ampersands between them; nothing when there are none. -/
def join? (pairs : List Text) : Option Text :=
  if pairs.isEmpty then none else some (['&'].intercalate pairs)

def sorted (pairs : List Text) : List Text :=
  pairs.mergeSort fun a b => !(b < a)

mutual

/-- The pairs of a parameter, joined. -/
def pairs (key : Text) : Value → Option Text
  | .map entries => join? (sorted (entryPairs key entries))
  -- the items keep their order; only pairs of a map are sorted
  | .list items => join? (itemPairs (key ++ "[]".toList) items)
  | .nil => none
  | .bool b => some (pair key (Text.ofBool b))
  | .int i => some (pair key (Text.ofInt i))
  | .str s => some (pair key s)
  | .symbol s => some (pair key s)

/-- The pairs of each item of a list that has any, all under one key. -/
def itemPairs (key : Text) : List Value → List Text
  | [] => []
  | v :: vs => (pairs key v).toList ++ itemPairs key vs

/-- The pairs of each entry of a map that has any. -/
def entryPairs (key : Text) : List (Text × Value) → List Text
  | [] => []
  | (sub, v) :: es => (pairs (key ++ ['['] ++ sub ++ [']']) v).toList ++ entryPairs key es

end

/-- The query string of parameters, empty when nothing in them has a path form. -/
def ofParams (params : Params) : Text :=
  -- sorted by the joined pairs of each parameter, which stay together
  ['&'].intercalate (sorted (params.entries.filterMap fun (key, v) => pairs key v))

end Routing.Query
