import Routing.Regex.CharSet

/-!
# Expressions

Expressions without flags: sets of characters, places, sequences, choices, repetitions and groups.
They are put together by functions that keep them **reduced**, because what an expression prefers
when it can match in several ways, and how large it is, are settled on the reduced form:

* `Expr.concat` — a sequence without empty parts
* `Expr.choice` — a choice; one between sets is a set, and a beginning that all branches share is
  taken out of them
* `Expr.repeated` — a repetition; one of something that never takes text happens at most once
* `Expr.least`, `Expr.greatest` — bounds on the length of the matches
-/

namespace Routing.Regex

/-- A condition on the characters on both sides of a place. -/
inductive Look where
  /-- Nothing before. -/
  | start
  /-- Nothing after. -/
  | stop
  /-- Nothing or a line feed before. -/
  | lineStart
  /-- Nothing or a line feed after. -/
  | lineStop
  /-- As `lineStart`, where a carriage return ends a line too, but not between the two. -/
  | lineStartCrlf
  /-- As `lineStop`, where a carriage return ends a line too, but not between the two. -/
  | lineStopCrlf
  /-- A word begins or ends; words of every script when `wide`. -/
  | boundary (wide : Bool)
  /-- No word begins or ends. -/
  | notBoundary (wide : Bool)
  | wordStart (wide : Bool)
  | wordStop (wide : Bool)
  | wordStartHalf (wide : Bool)
  | wordStopHalf (wide : Bool)
deriving DecidableEq

inductive Expr where
  | empty
  /-- One character of a set. -/
  | set (s : CharSet)
  /-- The empty text at a place. -/
  | look (l : Look)
  /-- One expression after the other. -/
  | seq (a b : Expr)
  /-- Either expression, the first one preferred. -/
  | alt (a b : Expr)
  /-- From `lo` to `hi` copies, more of them preferred when greedy and fewer otherwise. -/
  | times (lo : Nat) (hi : Option Nat) (greedy : Bool) (e : Expr)
  /-- A group, whose text is bound to its name when it has one. -/
  | group (name : Option Text) (e : Expr)
deriving DecidableEq

namespace Expr

/-! ## Lengths -/

/-- A length that no match falls below; none when a set of the expression is empty. -/
def least : Expr → Option Nat
  | empty | look _ => some 0
  | set s => if s = .empty then none else some 1
  | seq a b => do return (← a.least) + (← b.least)
  | alt a b => do return min (← a.least) (← b.least)
  | times lo _ _ e => do return lo * (← e.least)
  | group _ e => e.least

/-- A length that no match exceeds; none when there is no bound, or a set is empty. -/
def greatest : Expr → Option Nat
  | empty | look _ => some 0
  | set s => if s = .empty then none else some 1
  | seq a b => do return (← a.greatest) + (← b.greatest)
  | alt a b => do return max (← a.greatest) (← b.greatest)
  | times _ hi _ e => do return (← hi) * (← e.greatest)
  | group _ e => e.greatest

/-- Whether every match is known to take text. -/
def takesText (e : Expr) : Bool :=
  e.least.any (0 < ·)

/-! ## Sequences -/

def parts : Expr → List Expr
  | empty => []
  | seq a b => a.parts ++ b.parts
  | e => [e]

/-- The sequence of some parts. -/
def ofParts : List Expr → Expr
  | [] => empty
  | [e] => e
  | e :: es => seq e (ofParts es)

/-- Expressions one after the other. -/
def concat (es : List Expr) : Expr :=
  ofParts (es.flatMap parts)

/-! ## Choices -/

def branches : Expr → List Expr
  | alt a b => a.branches ++ b.branches
  | e => [e]

/-- The choice of some branches, the first ones preferred; there is none in an empty list. -/
def ofBranches : List Expr → Expr
  | [] => set .empty
  | [e] => e
  | e :: es => alt e (ofBranches es)

/-- The set of an expression that is one. -/
def set? : Expr → Option CharSet
  | set s => some s
  | _ => none

/-- The code point of an expression that is a single character. -/
def code? : Expr → Option Nat
  | set ⟨[lo, hi], _⟩ => if hi = lo + 1 then some lo else none
  | _ => none

def isGroupFree : Expr → Bool
  | empty | set _ | look _ => true
  | seq a b | alt a b => a.isGroupFree && b.isGroupFree
  | times _ _ _ e => e.isGroupFree
  | group _ _ => false

def nodes : Expr → Nat
  | empty | set _ | look _ => 1
  | seq a b | alt a b => a.nodes + b.nodes + 1
  | times _ _ _ e | group _ e => e.nodes + 1

/-- The parts of a sequence with every run of single characters taken together. -/
def blocks : List Expr → List (List Expr)
  | [] => []
  | e :: es =>
    match e.code?, blocks es with
    | some _, (d :: run) :: rest =>
      if d.code?.isSome then (e :: d :: run) :: rest else [e] :: (d :: run) :: rest
    | _, rest => [e] :: rest

/-- What two lists have in common at their beginnings. -/
def sharedStart : List (List Expr) → List (List Expr) → List (List Expr)
  | a :: as, b :: bs =>
    if a = b ∧ a.all isGroupFree then a :: sharedStart as bs else []
  | _, _ => []

/-- The blocks that branches share at their beginnings, and what each branch goes on with. Every
branch has to be a sequence of at least two blocks, and no group is shared: each captures its own
text. -/
def shared? (bs : List Expr) : Option (List Expr × List Expr) :=
  match bs.map fun b => blocks b.parts with
  | [] => none
  | first :: rest =>
    if first.length < 2 ∨ rest.any (·.length < 2) then none
    else
      match rest.foldl sharedStart first with
      | [] => none
      | start =>
        some (start.flatten, (first :: rest).map fun b => ofParts (b.drop start.length).flatten)

/-- A choice between expressions. The fuel bounds how often a shared beginning is taken out. -/
def choiceOf : (fuel : Nat) → List Expr → Expr
  | 0, es => ofBranches es
  | fuel + 1, es =>
    -- a choice among the branches is no choice of its own
    match es.flatMap branches with
    | [] => set .empty
    | [e] => e
    | bs =>
      -- between sets preference does not matter: each takes one character
      match bs.mapM set? with
      | some sets => set (CharSet.unions sets)
      | none =>
        match shared? bs with
        -- the ends may share more once they stand alone
        | some (start, ends) => concat (start ++ [choiceOf fuel ends])
        | none => ofBranches bs

/-- A choice between expressions, the first ones preferred. Each time a shared beginning is taken
out, the branches lose a node. -/
def choice (es : List Expr) : Expr :=
  choiceOf ((es.map nodes).foldl (· + ·) 1) es

/-! ## Repetitions -/

/-- From `lo` to `hi` copies, more of them preferred when greedy and fewer otherwise. -/
def repeated (lo : Nat) (hi : Option Nat) (greedy : Bool) (e : Expr) : Expr :=
  let (lo, hi) :=
    -- a second copy of an empty match adds nothing
    if e.greatest = some 0 then (min lo 1, some (min (hi.getD 1) 1)) else (lo, hi)
  if lo = 0 ∧ hi = some 0 then empty
  else if lo = 1 ∧ hi = some 1 then e
  else times lo hi greedy e

end Expr

end Routing.Regex
