import Routing.Regex.Footprint
import Routing.Regex.Match
import Routing.Regex.Meaning
import Routing.Regex.Reader

/-!
# Regular expressions

An expression is its text together with what the text means, and the type says that the one is the
meaning of the other.

* `Regex.parse` — the meaning of a text
* `Regex.compile` — the expression of a text, or why it is none
* `Regex.isMatch`, `Regex.match?` — whether a text holds a match, and what its groups are bound to
* `Regex.quote` — the expression that matches a text literally
* `Regex.eq_of_source` — expressions with one text are equal
-/

namespace Routing

variable [Properties]

namespace Regex

/-- The meaning of a text, with no flag switched on but `u`. -/
def parse (s : Text) : Except Fault Expr := do
  let written ← Syntax.read s
  let (e, _) ← written.meaning {}
  -- last, since it is asked of the meaning
  if e.fits then return e else .error .size

end Regex

structure Regex where
  source : Text
  expr : Regex.Expr
  parsed : Regex.parse source = .ok expr

namespace Regex

theorem eq_of_source {r q : Regex} (h : r.source = q.source) : r = q := by
  obtain ⟨s, e, he⟩ := r
  obtain ⟨t, f, hf⟩ := q
  cases h
  cases he.symm.trans hf
  rfl

instance : DecidableEq Regex := fun r q =>
  decidable_of_iff (r.source = q.source) ⟨eq_of_source, fun h => h ▸ rfl⟩

def compile (s : Text) : Except Fault Regex :=
  match h : parse s with
  | .ok e => .ok ⟨s, e, h⟩
  | .error f => .error f

theorem source_of_compile {s : Text} {r : Regex} (h : compile s = .ok r) : r.source = s := by
  unfold compile at h
  split at h <;> cases h
  rfl

/-- What the groups are bound to in the first match, the latest first. -/
def match? (r : Regex) (s : Text) : Option (List (Text × Text)) :=
  r.expr.find? s

def isMatch (r : Regex) (s : Text) : Bool :=
  (r.expr.find? s).isSome

/-! ## Quoting -/

/-- Whether the character can mean something other than itself. -/
def isMeta (c : Char) : Bool :=
  "\\.+*?()|[]\x7b\x7d^$#&-~".toList.contains c

/-- The expression of a text taken literally: a backslash before every character that could mean
something else. -/
def quote (s : Text) : Text :=
  s.flatMap fun c => if isMeta c then ['\\', c] else [c]

end Regex

end Routing
