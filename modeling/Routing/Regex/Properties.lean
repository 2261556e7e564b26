import Routing.Regex.CharSet
import Routing.Regex.Syntax
import Routing.Text.Letter

/-!
# Tables of properties

What the name of a property stands for is looked up in tables: hundreds of general categories,
scripts and other properties, which change with every version of Unicode. Expressions take the
tables as they are given, and what is proved of expressions holds with any tables.

* `Properties` — the tables
* `Properties.common` — the tables of a few properties in frequent use
-/

namespace Routing

open Regex (CharSet Property)

/-- The tables of the properties that an expression can name. -/
class Properties where
  /-- The characters that have the property; `none` when nothing is known by its name. -/
  find? : Property → Option CharSet

namespace Properties

/-- The form in which names are compared: case, blanks, hyphens, underscores and `is` at the
beginning do not count. -/
def canonical (name : Text) : Text :=
  let letters := if (name.take 2).map Char.toLower = ['i', 's'] then name.drop 2 else name
  (letters.filter fun c => c.toNat < 0x80 && c ∉ [' ', '-', '_']).map Char.toLower

/-- The set of a general category. -/
def category? (name : Text) : Option CharSet :=
  (table.find? fun e => (e.1.map String.toList).contains (canonical name)).map Prod.snd
where
  /-- The names of each category and its characters. -/
  table : List (List String × CharSet) :=
    [(["l", "letter"], .ofTable letterCategoryRanges ascending_letterCategoryRanges),
     (["nd", "decimalnumber", "digit"], .decimal),
     (["any"], .all),
     (["ascii"], .codes 0 0x7F)]

/-- The tables of letters, decimal digits and blanks, and of the sets of all characters and of the
ASCII ones. Nothing else is known to them. -/
instance common : Properties where
  find?
    | .letter c => category? [c]
    | .named name =>
      if ["whitespace", "wspace", "space"].any fun n => n.toList = canonical name then some .blank
      else category? name
    | .valued name value =>
      if ["generalcategory", "gc"].any fun n => n.toList = canonical name then category? value
      else none

end Properties

end Routing
