import Routing.Regex.Expr

/-!
# Programs

An expression is carried out as a list of **instructions**. Execution goes from each instruction to
the next one unless the instruction says otherwise, and the expression has matched when it arrives
behind the last one. Distances are relative, so the program of an expression is the same wherever it
stands in a larger one.

* `Instr` — the instructions
* `Expr.code` — the program of an expression

A repetition whose copies always take text returns to the instruction that decides whether a copy
follows. One whose copies may be empty decides once more after each copy instead: which place is
come to first, and so which match is preferred, hangs on this where such repetitions nest.
-/

namespace Routing.Regex

inductive Instr where
  /-- Takes one character of a set. -/
  | take (s : CharSet)
  /-- Goes on at a place that meets a condition. -/
  | look (l : Look)
  /-- Goes on, or leaves out the next `n` instructions; greedy prefers to go on. -/
  | skip (greedy : Bool) (n : Nat)
  /-- Goes back `n` instructions, or on; greedy prefers to go back. -/
  | again (greedy : Bool) (n : Nat)
  /-- Leaves out the next `n` instructions. -/
  | jump (n : Nat)
  /-- Goes back `n` instructions. -/
  | back (n : Nat)
  /-- A group with a name begins. -/
  | opened
  /-- The group that began last ends, and its text is bound to the name. -/
  | closed (name : Text)
deriving DecidableEq

namespace Instr

def copies (n : Nat) (code : List Instr) : List Instr :=
  (List.replicate n code).flatten

/-- Up to `n` copies of some code. Each one stands behind a decision to leave out all that
follow. -/
def upTo (greedy : Bool) (n : Nat) (code : List Instr) : List Instr :=
  -- from the last copy to the first, each decision spanning all behind it
  (List.range n).foldl
    (fun rest i => skip greedy (code.length + i * (code.length + 1)) :: (code ++ rest)) []

end Instr

namespace Expr

open Instr

def code : Expr → List Instr
  | empty => []
  | set s => [take s]
  | look l => [.look l]
  | seq a b => a.code ++ b.code
  | alt a b =>
    let first := a.code
    let second := b.code
    -- laziness is for repetitions: the first branch is always preferred
    skip true (first.length + 1) :: first ++ jump second.length :: second
  | times lo hi greedy e =>
    let copy := e.code
    match lo, hi with
    | 0, none =>
      let rest := if e.takesText then back (copy.length + 1) else again greedy copy.length
      skip greedy (copy.length + 1) :: copy ++ [rest]
    -- the last of the copies is the one that comes again
    | lo + 1, none => copies (lo + 1) copy ++ [again greedy copy.length]
    | lo, some hi => copies lo copy ++ upTo greedy (hi - lo) copy
  | group none e => e.code
  | group (some name) e => opened :: e.code ++ [closed name]

end Expr

end Routing.Regex
