import Routing.Regex.Expr
import Routing.Regex.Fault
import Routing.Regex.Properties
import Routing.Regex.Syntax

/-!
# What an expression means

The flags in force decide what the written parts of an expression stand for. `Syntax.meaning`
resolves them and leaves an `Expr`.

* `Flags` — the flags in force, and how a `FlagChange` alters them
* `Property.meaning` — a property, looked up in the tables
* `ClassSyntax.meaning`, `Syntax.meaning` — what is written, under the flags in force

Without the flag `u` a set may hold ASCII characters only: anything more could match in the middle
of a character, and is refused. Properties may not be named without it either.
-/

namespace Routing.Regex

/-! ## Flags -/

structure Flags where
  ignoreCase : Bool := false
  /-- Line anchors hold at line ends inside the text. -/
  multiLine : Bool := false
  /-- The dot matches line feeds. -/
  dotAll : Bool := false
  /-- Greedy and lazy repetition change places. -/
  swapGreed : Bool := false
  /-- Classes and case cover every script. -/
  unicode : Bool := true
  /-- Carriage returns count as line ends. -/
  crlf : Bool := false
deriving DecidableEq

def Flags.change (f : Flags) (c : FlagChange) : Flags where
  ignoreCase := c.apply .ignoreCase f.ignoreCase
  multiLine := c.apply .multiLine f.multiLine
  dotAll := c.apply .dotAll f.dotAll
  swapGreed := c.apply .swapGreed f.swapGreed
  unicode := c.apply .unicode f.unicode
  crlf := c.apply .crlf f.crlf

/-- The set closed under case, when case is ignored. -/
def Flags.fold (f : Flags) (s : CharSet) : CharSet :=
  if f.ignoreCase then if f.unicode then s.folded else s.foldedAscii else s

/-- The complement of a set when `negated`; it is no set of ASCII characters. -/
def Flags.negate (f : Flags) (negated : Bool) (s : CharSet) : Except Fault CharSet :=
  if negated then if f.unicode then .ok s.compl else .error .notText else .ok s

/-! ## Classes -/

def ShortClass.meaning (f : Flags) (kind : ShortClass) (negated : Bool) : Except Fault CharSet :=
  -- no folding: these classes are closed under case already
  f.negate negated <| match kind with
    | .digit => if f.unicode then .decimal else .asciiDigit
    | .blank => if f.unicode then .blank else .asciiBlank
    | .word => if f.unicode then .word else .asciiWord

variable [Properties]

/-- The set of a property. Case is folded before the complement is taken. -/
def Property.meaning (f : Flags) (p : Property) (negated : Bool) : Except Fault CharSet :=
  if f.unicode then
    match Properties.find? p with
    | some s => f.negate negated (f.fold s)
    | none => .error .property
  else .error .property

def ClassOp.meaning : ClassOp → CharSet → CharSet → CharSet
  | .inter => .inter
  | .diff => .diff
  | .symmDiff => .symmDiff

mutual

/-- The set that a class describes. Case is folded before a complement is taken, and in both
operands before an operation. -/
def ClassSyntax.meaning (f : Flags) : ClassSyntax → Except Fault CharSet
  | .char c => if f.unicode || c.toNat < 0x80 then .ok (.single c) else .error .notText
  | .range lo hi => if f.unicode || hi.toNat < 0x80 then .ok (.range lo hi) else .error .notText
  | .short kind negated => kind.meaning f negated
  | .property p negated => p.meaning f negated
  -- the reader has let known names through only
  | .named name negated => f.negate negated (f.fold ((CharSet.ascii? name).getD .empty))
  | .bracket negated body => do f.negate negated (f.fold (← body.meaning f))
  | .union items => do return CharSet.unions (← ClassSyntax.meanings f items)
  | .op kind lhs rhs => do
    let l ← lhs.meaning f
    let r ← rhs.meaning f
    return kind.meaning (f.fold l) (f.fold r)

def ClassSyntax.meanings (f : Flags) : List ClassSyntax → Except Fault (List CharSet)
  | [] => .ok []
  | item :: items => do return (← item.meaning f) :: (← ClassSyntax.meanings f items)

end

/-! ## Expressions -/

/-- The set of one character. Two hexadecimal digits beyond ASCII are a byte without `u`. -/
def charMeaning (f : Flags) (c : Char) (byte : Bool) : Except Fault Expr :=
  if !f.unicode && byte && 0x80 ≤ c.toNat then .error .notText
  else .ok (.set (f.fold (.single c)))

def dotMeaning (f : Flags) : Except Fault Expr :=
  -- it would match single bytes of a character
  if !f.unicode then .error .notText
  else if f.dotAll then .ok (.set .all)
  else if f.crlf then .ok (.set (CharSet.compl (.union (.single '\n') (.single '\r'))))
  else .ok (.set (CharSet.compl (.single '\n')))

def Anchor.meaning (f : Flags) : Anchor → Look
  | .lineStart => if f.multiLine then if f.crlf then .lineStartCrlf else .lineStart else .start
  | .lineEnd => if f.multiLine then if f.crlf then .lineStopCrlf else .lineStop else .stop
  | .textStart => .start
  | .textEnd => .stop
  | .boundary => .boundary f.unicode
  | .notBoundary => .notBoundary f.unicode
  | .wordStart => .wordStart f.unicode
  | .wordEnd => .wordStop f.unicode
  | .wordStartHalf => .wordStartHalf f.unicode
  | .wordEndHalf => .wordStopHalf f.unicode

/-- The group of a kind; a flag group is none once its flags are resolved. -/
def GroupKind.wrap : GroupKind → Expr → Expr
  | .named name, e => .group (some name) e
  | .plain, e => .group none e
  | .flagged _, e => e

/-- The flags inside a group. -/
def GroupKind.flags (f : Flags) : GroupKind → Flags
  | .flagged change => f.change change
  | .plain | .named _ => f

mutual

/-- The expression under the flags in force, and the flags in force after it. -/
def Syntax.meaning (f : Flags) : Syntax → Except Fault (Expr × Flags)
  | .empty => .ok (.empty, f)
  | .char c byte => do return (← charMeaning f c byte, f)
  | .dot => do return (← dotMeaning f, f)
  | .anchor kind => .ok (.look (kind.meaning f), f)
  | .short kind negated => do return (.set (← kind.meaning f negated), f)
  | .property p negated => do return (.set (← p.meaning f negated), f)
  | .bracket negated body => do return (.set (← f.negate negated (f.fold (← body.meaning f))), f)
  -- in force until the group around it ends
  | .flags change => .ok (.empty, f.change change)
  -- `f` goes on after the group, whatever was switched in it
  | .group kind body => do return (kind.wrap (← body.meaning (kind.flags f)).1, f)
  | .times lo hi greedy body => do
    let (e, g) ← body.meaning f
    return (.repeated lo hi (greedy != f.swapGreed) e, g)
  | .seq items => do
    let (es, g) ← Syntax.meanings f items
    return (.concat es, g)
  | .alt branches => do
    let (es, g) ← Syntax.meanings f branches
    return (.choice es, g)

/-- The expressions of parts, each under the flags that the part before it left. -/
def Syntax.meanings (f : Flags) : List Syntax → Except Fault (List Expr × Flags)
  | [] => .ok ([], f)
  | item :: items => do
    let (e, g) ← item.meaning f
    let (es, h) ← Syntax.meanings g items
    return (e :: es, h)

end

end Routing.Regex
