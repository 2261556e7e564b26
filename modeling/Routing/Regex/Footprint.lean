import Routing.Regex.ByteRanges
import Routing.Regex.Expr

/-!
# How large an expression is

An expression is carried out by automata over the bytes of UTF-8, one that reads forward and one
that reads backward, and repetition with counts can make them large. Their size in memory is told
from the expression without building them: a state takes 32 bytes, each transition of a state that
may have several takes 8, and each way on from a state that branches takes 4.

The sizes, the order in which states are shared and `Expr.sizeLimit` are those of one release of the
engine: `regex` 1.10 with `regex-automata` 0.4 and `regex-syntax` 0.8, on a machine of 64 bits. They
are no part of what the engine promises, and another release may count otherwise.

* `CharSet.forwardSize`, `CharSet.backwardSize` — the automaton of a set; the forward one has the
  fewest states, the backward one shares what follows
* `Footprint.ofWords` — the automaton of a choice between literal texts
* `Expr.cost` — the automaton of an expression, given what sets take
* `Expr.fits` — whether neither automaton exceeds `Expr.sizeLimit`, which a bound on the size of
  sets mostly tells already
-/

namespace Routing.Regex

namespace Footprint

/-- A state, whatever it does. -/
def state : Nat := 32

/-- A transition of a state that may have several. -/
def transition : Nat := 8

/-- A way on from a state that branches. -/
def way : Nat := 4

/-! ## Sets -/

/-- Puts sequences with the same first range together. -/
def byFirst : List (List ByteRange) → List (ByteRange × List (List ByteRange))
  | [] => []
  | [] :: rest => byFirst rest
  | (r :: tail) :: rest =>
    -- the sequences ascend, so equal first ranges stand side by side
    match byFirst rest with
    | (q, tails) :: groups =>
      if r = q then (q, tail :: tails) :: groups else (r, [tail]) :: (q, tails) :: groups
    | [] => [(r, [tail])]

/-- A state of the forward automaton of a set: the byte ranges it accepts and the number of the
state that each leads to. The state that accepts has the number 0. -/
abbrev Node := List (ByteRange × Nat)

/-- The number of a state among the known ones, the latest first, and the known ones with it. -/
def number (known : List Node) (node : Node) : Nat × List Node :=
  match known.findIdx? (· = node) with
  -- counted from the far end, so a number stays when states are added in front
  | some i => (known.length - i, known)
  | none => (known.length + 1, node :: known)

/-- Numbers the states that read some sequences, of at most `depth` bytes each; states that accept
the same are one. -/
def share : (depth : Nat) → List (List ByteRange) → List Node → Nat × List Node
  | 0, _, known => (0, known)
  | depth + 1, seqs, known =>
    match byFirst seqs with
    | [] => (0, known)
    | groups =>
      -- the states known grow on the way, so later groups find those of earlier ones
      let (node, known) := groups.foldl
        (fun (node, known) (r, tails) =>
          let (n, known) := share depth tails known
          (node ++ [(r, n)], known))
        ([], known)
      number known node

/-- How many elements two lists have in common at their beginnings. -/
def sharedLength : List ByteRange → List ByteRange → Nat
  | a :: as, b :: bs => if a = b then sharedLength as bs + 1 else 0
  | _, _ => 0

/-- The states of the backward automaton of sequences: one for each range, but those at the
beginning of a sequence that the sequence before it has too are there already. -/
def backwardStates (before : List ByteRange) : List (List ByteRange) → Nat
  | [] => 0
  | q :: rest => q.length - sharedLength before q + backwardStates q rest

/-! ## Literal texts -/

/-- The first bytes of some texts, each once. -/
def firsts (words : List (List UInt8)) : List UInt8 :=
  (words.filterMap List.head?).eraseDups

/-- The states that read one of some texts, given in order of preference, whose lengths do not
exceed `depth`. Between two texts that are complete, those that go on share a state for each first
byte. -/
def wordStates : (depth : Nat) → List (List UInt8) → Nat
  | 0, _ => 0
  | depth + 1, words =>
    if words.all List.isEmpty then 0
    else
      -- of several complete texts in front the first one matches, and the others are never tried
      let words :=
        match words.takeWhile List.isEmpty with
        | [] => words
        | _ => [] :: words.dropWhile List.isEmpty
      let runs := words.splitOn []
      let nonempty := runs.filter (· ≠ [])
      state + way * (nonempty.length + (runs.length - 1)) +
        nonempty.foldl (fun total run =>
          let bytes := firsts run
          bytes.foldl (fun total b => total +
              wordStates depth (run.filterMap fun w => if w.head? = some b then w.tail? else none))
            (total + if bytes.length = 1 then state else state + transition * bytes.length)) 0

/-- The automaton of a choice between literal texts. -/
def ofWords (words : List (List UInt8)) : Nat :=
  state + wordStates ((words.map List.length).foldl max 0 + 1) words

end Footprint

namespace CharSet

open Footprint

/-- The size of a set of ASCII characters: a state with a transition for each range, and the state
after it. -/
def asciiSize (s : CharSet) : Nat :=
  2 * state + transition * s.ranges.length

def forwardSize (s : CharSet) : Nat :=
  if s.isAscii then s.asciiSize
  else
    let nodes := (share 4 s.sequences []).2
    (nodes.map fun node => state + transition * node.length).foldl (· + ·) state

def backwardSize (s : CharSet) : Nat :=
  if s.isAscii then s.asciiSize
  else 2 * state + way * s.sequences.length + state * backwardStates [] s.sequences

/-- A bound on the size of both automata of a set: there are at most four bytes in a sequence, and
each takes at most a state and a transition. -/
def sizeBound (s : CharSet) : Nat :=
  if s.isAscii then s.asciiSize
  else 2 * state + 4 * (state + transition) * s.sequences.length

end CharSet

/-! ## Expressions -/

/-- The direction in which an automaton reads. -/
inductive Direction where
  | forward
  | backward
deriving DecidableEq

namespace Direction

def setSize : Direction → CharSet → Nat
  | forward => CharSet.forwardSize
  | backward => CharSet.backwardSize

/-- The size of what marks a group; only the forward automaton does. -/
def groupSize : Direction → Nat
  | forward => 2 * Footprint.state
  | backward => 0

/-- The bytes of a text in the order in which they are read. -/
def order : Direction → List UInt8 → List UInt8
  | forward => id
  | backward => List.reverse

end Direction

namespace Expr

open Footprint

/-- The bytes of an expression that is a literal text. -/
def bytes? (e : Expr) : Option (List UInt8) :=
  match e.parts with
  | [] => none
  | parts => (parts.mapM code?).map fun codes => codes.flatMap Utf8.encodeCode

/-- The size of an expression when sets take `setSize`; `within` tells that it is the rest of a
choice. -/
def cost (d : Direction) (setSize : CharSet → Nat) (within : Bool) : Expr → Nat
  | empty | look _ => state
  | set s =>
    -- a single character is a literal: one state for each of its bytes
    match (set s).code? with
    | some n => state * (Utf8.encodeCode n).length
    | none => setSize s
  | seq a b => a.cost d setSize false + b.cost d setSize false
  | alt a b =>
    -- asked once, of the whole choice: its rest may be literal although the first branch is not
    match if within then none else (alt a b).branches.mapM bytes? with
    | some words => ofWords (words.map d.order)
    | none =>
      (if within then 0 else 2 * state) + way + a.cost d setSize false + b.cost d setSize true +
        (match b with
          | alt _ _ => 0
          | _ => way)
  | times lo hi _ e =>
    -- the state that decides whether another copy follows
    let branch := state + 2 * way
    let copy := e.cost d setSize false
    match lo, hi with
    | 0, none => if e.takesText then branch + copy else copy + 2 * branch + state
    | lo + 1, none => (lo + 1) * copy + branch
    | 0, some 1 => branch + copy + state
    | lo, some hi =>
      if lo = hi then lo * copy
      else (if lo = 0 then state else lo * copy) + state + (hi - lo) * (branch + copy)
  | group _ e => d.groupSize + e.cost d setSize false

/-- The size of the automaton of an expression when sets take `setSize`: besides what the expression
takes, a state before it, one that accepts, and the group that the whole match is. -/
def size (d : Direction) (setSize : CharSet → Nat) (e : Expr) : Nat :=
  2 * state + d.groupSize + e.cost d setSize false

/-- The greatest size that is accepted, ten mebibytes: what an engine of the release above allows
when nothing else is asked of it. -/
def sizeLimit : Nat := 10 * 1024 * 1024

/-- Whether neither automaton of an expression is too large. -/
def fits (e : Expr) : Bool :=
  -- the bound is cheap; the automata of large sets are counted only where it does not decide
  [Direction.forward, .backward].all fun d =>
    e.size d CharSet.sizeBound ≤ sizeLimit || e.size d d.setSize ≤ sizeLimit

end Expr

end Routing.Regex
