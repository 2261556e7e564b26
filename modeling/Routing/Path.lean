import Routing.Text.Percent

/-!
# Paths

A path is a text of components set apart by slashes. **Canonical** paths begin with a slash and
have neither an empty component nor a slash at the end. A request's path is made canonical, then
decoded component by component; an encoded slash must not become a separator on the way, so a
decoded component keeps **placeholders** (`%2F` for a slash, `%25` for a percent sign) until its
text is bound to a parameter.

* `Path.isCanonical`, `Path.components`, `Path.normalize`
* `Path.decodeComponent`, `Path.decode` — percent-decoding with placeholders;
  `Path.restore` — placeholders back to characters
* `Path.escape`, `Path.escapeParts` — the reverse way: a value as one component, or as several
-/

namespace Routing.Path

/-! ## Canonical paths -/

/-- Whether two slashes stand side by side. -/
def hasEmptyPart : Text → Bool
  | [] => false
  | [_] => false
  | c :: d :: s => (c = '/' && d = '/') || hasEmptyPart (d :: s)

/-- Begins with a slash, has no two slashes side by side, and ends with a slash only when it is the
root. -/
def isCanonical (s : Text) : Bool :=
  s.head? = some '/' && !hasEmptyPart s && (s = ['/'] || s.getLast? ≠ some '/')

/-- The non-empty parts between slashes. -/
def components (s : Text) : List Text :=
  (s.splitOn '/').filter fun part => !part.isEmpty

/-- A slash before each component; the root when there are none. -/
def ofComponents (parts : List Text) : Text :=
  '/' :: ['/'].intercalate parts

/-- The part of a request target before its query. -/
def beforeQuery (s : Text) : Text :=
  s.takeWhile (· ≠ '?')

/-- The canonical path with the components of `s` before its query. -/
def normalize (s : Text) : Text :=
  let path := beforeQuery s
  -- most paths are canonical; for them both branches agree
  if isCanonical path then path else ofComponents (components path)

/-! ## Decoding -/

/-- Stands for a slash in a decoded component. -/
def slashMark : Text := "%2F".toList

/-- Stands for a percent sign in a decoded component. -/
def percentMark : Text := "%25".toList

/-- Puts placeholders for the characters that have them. -/
def mark (s : Text) : Text :=
  s.flatMap fun c => if c = '%' then percentMark else if c = '/' then slashMark else [c]

/-- The percent-decoded component, with placeholders for the slashes and percent signs that
decoding brought. A component without a percent sign stays as it is. -/
def decodeComponent (s : Text) : Text :=
  -- a slash cannot occur here, so without a percent sign there is nothing to mark
  if '%' ∈ s then mark (Percent.decode s) else s

/-- Decodes every component of a canonical path. -/
def decode (s : Text) : Text :=
  -- the root has no component that could carry its slash
  if s = ['/'] then s else (components s).flatMap fun part => '/' :: decodeComponent part

/-- Puts the characters back for which placeholders stand; any other percent sign stays. -/
def restore : Text → Text
  -- in one pass: a percent sign that comes back is not read again
  | '%' :: '2' :: 'F' :: s => '/' :: restore s
  | '%' :: '2' :: '5' :: s => '%' :: restore s
  | c :: s => c :: restore s
  | [] => []

/-! ## Escaping -/

/-- The characters that stand for themselves inside a component: the ASCII ones that are neither
controls nor spaces nor one of the fifteen listed. -/
def isPlain (c : Char) : Bool :=
  0x20 < c.toNat && c.toNat < 0x7F && !("\"#%/<>?[\\]^`\x7b|\x7d".toList.contains c)

/-- The text as one component. -/
def escape (s : Text) : Text :=
  Percent.encode isPlain s

/-- The text with every part between slashes escaped and the slashes kept. -/
def escapeParts (s : Text) : Text :=
  -- empty parts stay empty, so the slashes are exactly those of the text
  ['/'].intercalate ((s.splitOn '/').map escape)

end Routing.Path
