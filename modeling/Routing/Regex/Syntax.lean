import Routing.Text

/-!
# Expressions as written

The tree of an expression as its text spells it: groups, flag changes and classes still in place,
nothing folded or expanded. The reader produces it and the meaning is computed from it.

* `Property` — a property of characters by its name
* `ClassSyntax` — what stands between brackets
* `Syntax` — an expression; `Syntax.ofItems`, `Syntax.ofBranches` build a sequence and a choice
  without wrapping a single part
* `Syntax.depth` — how deep the tree nests, which `Syntax.depthLimit` bounds
-/

namespace Routing.Regex

/-- A mode that a group or a flag item switches. -/
inductive Flag where
  /-- Letters match either case (`i`). -/
  | ignoreCase
  /-- Line anchors hold at line ends inside the text (`m`). -/
  | multiLine
  /-- The dot matches line feeds (`s`). -/
  | dotAll
  /-- Greedy and lazy repetition change places (`U`). -/
  | swapGreed
  /-- Classes and case cover every script (`u`). -/
  | unicode
  /-- Carriage returns count as line ends (`R`). -/
  | crlf
  /-- Blanks and comments are skipped (`x`). -/
  | extended
deriving DecidableEq

def Flag.ofChar? : Char → Option Flag
  | 'i' => some .ignoreCase
  | 'm' => some .multiLine
  | 's' => some .dotAll
  | 'U' => some .swapGreed
  | 'u' => some .unicode
  | 'R' => some .crlf
  | 'x' => some .extended
  | _ => none

/-- Flags switched on and flags switched off. -/
structure FlagChange where
  on : List Flag
  off : List Flag
deriving DecidableEq

/-- The state of one flag after a change. -/
def FlagChange.apply (change : FlagChange) (flag : Flag) (before : Bool) : Bool :=
  if flag ∈ change.on then true else if flag ∈ change.off then false else before

/-- The classes with a letter of their own. -/
inductive ShortClass where
  /-- Digits, `\d`. -/
  | digit
  /-- Blanks, `\s`. -/
  | blank
  /-- Word characters, `\w`. -/
  | word
deriving DecidableEq

/-- A property of characters, as an expression names it. -/
inductive Property where
  /-- A general category by its letter, `\pL`. -/
  | letter (c : Char)
  /-- A name alone, `\p{name}`. -/
  | named (name : Text)
  /-- A name and a value, `\p{name=value}`. -/
  | valued (name value : Text)
deriving DecidableEq

/-- The two sides of the first `!=`. -/
def Property.cutUnequal? : Text → Option (Text × Text)
  | [] => none
  | '!' :: '=' :: s => some ([], s)
  | c :: s => (cutUnequal? s).map fun (before, after) => (c :: before, after)

/-- The property that the text in braces names. A value stands after the first `!=`, else after the
first colon, else after the first equals sign; the three signs say the same. -/
def Property.ofText (s : Text) : Property :=
  match (cutUnequal? s).or ((Text.cut? ':' s).or (Text.cut? '=' s)) with
  | some (name, value) => .valued name value
  | none => .named s

/-- The set operations between classes. -/
inductive ClassOp where
  /-- Intersection, `&&`. -/
  | inter
  /-- Difference, `--`. -/
  | diff
  /-- Symmetric difference, `~~`. -/
  | symmDiff
deriving DecidableEq

inductive ClassSyntax where
  | char (c : Char)
  /-- The characters from `lo` to `hi`. -/
  | range (lo hi : Char)
  /-- A short class, `\d`, `\s` or `\w`, or its complement. -/
  | short (kind : ShortClass) (negated : Bool)
  /-- The characters with a property, `\p{ }`, or those without it, `\P{ }`. -/
  | property (p : Property) (negated : Bool)
  /-- A named class, `[:name:]`, or its complement, `[:^name:]`. -/
  | named (name : Text) (negated : Bool)
  | bracket (negated : Bool) (body : ClassSyntax)
  | union (items : List ClassSyntax)
  /-- Two operands of a set operation. -/
  | op (kind : ClassOp) (lhs rhs : ClassSyntax)

inductive Anchor where
  /-- Line start, `^`. -/
  | lineStart
  /-- Line end, `$`. -/
  | lineEnd
  /-- Text start, `\A`. -/
  | textStart
  /-- Text end, `\z`. -/
  | textEnd
  /-- A word begins or ends, `\b`. -/
  | boundary
  /-- No word begins or ends, `\B`. -/
  | notBoundary
  /-- A word begins, `\<` or `\b{start}`. -/
  | wordStart
  /-- A word ends, `\>` or `\b{end}`. -/
  | wordEnd
  /-- No word character precedes, `\b{start-half}`. -/
  | wordStartHalf
  /-- No word character follows, `\b{end-half}`. -/
  | wordEndHalf
deriving DecidableEq

/-- What a group does besides grouping. -/
inductive GroupKind where
  /-- Grouping alone, `( )`. -/
  | plain
  /-- Binds its text to a name, `(?P<name> )` or `(?<name> )`. -/
  | named (name : Text)
  /-- Changes flags inside, `(?flags: )`. -/
  | flagged (change : FlagChange)
deriving DecidableEq

inductive Syntax where
  | empty
  /-- A character; `byte` when it was written as two hexadecimal digits. -/
  | char (c : Char) (byte : Bool)
  | dot
  | anchor (kind : Anchor)
  /-- A short class, `\d`, `\s` or `\w`, or its complement. -/
  | short (kind : ShortClass) (negated : Bool)
  /-- The characters with a property, `\p{ }`, or those without it, `\P{ }`. -/
  | property (p : Property) (negated : Bool)
  | bracket (negated : Bool) (body : ClassSyntax)
  /-- A change of flags up to the end of the enclosing group, `(?flags)`. -/
  | flags (change : FlagChange)
  | group (kind : GroupKind) (body : Syntax)
  /-- At least `lo` and at most `hi` copies. -/
  | times (lo : Nat) (hi : Option Nat) (greedy : Bool) (body : Syntax)
  /-- Parts one after the other. -/
  | seq (items : List Syntax)
  /-- Branches, of which an earlier one is preferred. -/
  | alt (branches : List Syntax)

/-- The names of the named classes. -/
def ClassSyntax.names : List Text :=
  ["alnum", "alpha", "ascii", "blank", "cntrl", "digit", "graph", "lower", "print", "punct",
    "space", "upper", "word", "xdigit"].map String.toList

/-- Items of a class side by side; a single one stands for itself. -/
def ClassSyntax.ofItems : List ClassSyntax → ClassSyntax
  | [item] => item
  | items => .union items

namespace Syntax

/-- Parts one after the other; a single one stands for itself. -/
def ofItems : List Syntax → Syntax
  | [] => empty
  | [item] => item
  | items => seq items

/-- Branches of a choice; a single one stands for itself. -/
def ofBranches : List Syntax → Syntax
  | [branch] => branch
  | branches => alt branches

/-- Whether a repetition may follow: neither nothing nor a flag item can be repeated. -/
def isRepeatable : Syntax → Bool
  | empty => false
  | flags _ => false
  | _ => true

end Syntax

/-! ## Nesting -/

mutual

/-- How deep a class nests. Single items do not count. -/
def ClassSyntax.depth : ClassSyntax → Nat
  | .bracket _ body => body.depth + 1
  | .union [] => 0
  | .union (item :: items) => max item.depth (ClassSyntax.depths items) + 1
  | .op _ lhs rhs => max lhs.depth rhs.depth + 1
  | .char _ | .range _ _ | .short _ _ | .property _ _ | .named _ _ => 0

def ClassSyntax.depths : List ClassSyntax → Nat
  | [] => 0
  | item :: items => max item.depth (ClassSyntax.depths items)

end

mutual

/-- How deep an expression nests. Characters, dots, anchors, short classes, properties and flag
items do not count. -/
def Syntax.depth : Syntax → Nat
  | .bracket _ body => body.depth + 1
  | .group _ body => body.depth + 1
  | .times _ _ _ body => body.depth + 1
  | .seq items => Syntax.depths items + 1
  | .alt branches => Syntax.depths branches + 1
  | .empty | .char _ _ | .dot | .anchor _ | .short _ _ | .property _ _ | .flags _ => 0

def Syntax.depths : List Syntax → Nat
  | [] => 0
  | item :: items => max item.depth (Syntax.depths items)

end

/-- The deepest nesting that is accepted: what `regex-syntax` 0.8 allows when nothing else is asked
of it. -/
def Syntax.depthLimit : Nat := 250

end Routing.Regex
