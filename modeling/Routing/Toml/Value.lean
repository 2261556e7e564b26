import Routing.Decimal.Binary64
import Routing.Toml.Moment

/-!
# Values of a document

What a document binds names to. A table keeps its entries in the order in which they were written. A
moment and a table of one entry can stand for each other.

* `Value.text?`, `Value.texts?`, `Value.entries?` — a value as a text, as texts, as a table
-/

namespace Routing.Toml

inductive Value where
  | string (s : Text)
  /-- A whole number of 64 bits. -/
  | integer (i : Int)
  | float (x : Binary64)
  | boolean (b : Bool)
  /-- A date, a time or both. -/
  | moment (m : Moment)
  | array (items : List Value)
  | table (entries : List (Text × Value))

/-- The name under which a moment stands where a table is asked for. A table that begins with this
name stands for the moment that it binds. -/
def momentName : Text := "$__toml_private_datetime".toList

namespace Value

/-- The entries of a table, or the one entry that stands for a moment. -/
def entries? : Value → Option (List (Text × Value))
  | table entries => some entries
  | moment m => some [(momentName, string m.text)]
  | _ => none

def text? : Value → Option Text
  | string s => some s
  | _ => none

def texts? : Value → Option (List Text)
  | array items => items.mapM text?
  | _ => none

end Value

end Routing.Toml
