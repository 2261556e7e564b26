import Routing.Regex.Program

/-!
# Matching

A text is read once, from left to right. At each place the program is followed by several
**threads**, in order of preference, and no two of them stand at the same instruction: whatever the
later one could still do, the earlier one does as well and is preferred. A thread that arrives
behind the last instruction has found a match and ends all threads after it.

* `Thread` — where in the program a way of matching has come to, and the texts it has bound
* `Look.holds` — whether the characters around a place meet a condition
* `explore` — the threads that wait for a character at a place
* `Expr.find?` — what groups are bound to in the preferred match among those that begin earliest
-/

namespace Routing.Regex

namespace Look

/-- Whether a character is part of words, of every script when `wide`. -/
def inWord (wide : Bool) (c : Option Char) : Bool :=
  c.any fun c => if wide then isWord c else CharSet.asciiWord.mem c

/-- Whether the characters around a place meet the condition. -/
def holds : Look → (before after : Option Char) → Bool
  | start, b, _ => b.isNone
  | stop, _, a => a.isNone
  | lineStart, b, _ => b.isNone || b = some '\n'
  | lineStop, _, a => a.isNone || a = some '\n'
  | lineStartCrlf, b, a => b.isNone || b = some '\n' || (b = some '\r' && a ≠ some '\n')
  | lineStopCrlf, b, a => a.isNone || a = some '\r' || (a = some '\n' && b ≠ some '\r')
  | boundary w, b, a => inWord w b != inWord w a
  | notBoundary w, b, a => inWord w b == inWord w a
  | wordStart w, b, a => !inWord w b && inWord w a
  | wordStop w, b, a => inWord w b && !inWord w a
  | wordStartHalf w, b, _ => !inWord w b
  | wordStopHalf w, _, a => !inWord w a

end Look

/-! ## Sets of numbers -/

/-- A set of numbers, as the binary digits of one. -/
structure NatSet where
  /-- The digits. -/
  bits : Nat

namespace NatSet

def empty : NatSet := ⟨0⟩

def mem (s : NatSet) (n : Nat) : Bool := s.bits.testBit n

def insert (s : NatSet) (n : Nat) : NatSet := ⟨s.bits ||| 1 <<< n⟩

theorem mem_empty (n : Nat) : empty.mem n = false := by
  simp [mem, empty]

theorem mem_insert (s : NatSet) (n m : Nat) :
    (s.insert n).mem m = (s.mem m || decide (n = m)) := by
  simp only [mem, insert, Nat.testBit_or, Nat.one_shiftLeft, Nat.testBit_two_pow]

end NatSet

/-! ## Threads -/

structure Thread where
  /-- The instruction it has come to. -/
  next : Nat
  /-- Where the groups that it is inside of began, the innermost first. -/
  opened : List Nat
  /-- The names of the groups that ended, and where they began and ended, the latest first. -/
  spans : List (Text × Nat × Nat)

namespace Thread

def start : Thread := ⟨0, [], []⟩

def goTo (t : Thread) (n : Nat) : Thread := { t with next := n }

def step (t : Thread) : Thread := t.goTo (t.next + 1)

def openAt (t : Thread) (offset : Nat) : Thread :=
  { t with opened := offset :: t.opened }

/-- The group that began last ends. -/
def closeAt (t : Thread) (name : Text) (offset : Nat) : Thread :=
  match t.opened with
  | [] => t
  | o :: os => { t with opened := os, spans := (name, o, offset) :: t.spans }

/-- The texts of the groups that ended. -/
def groups (t : Thread) (s : Text) : List (Text × Text) :=
  t.spans.map fun (name, i, j) => (name, (s.drop i).take (j - i))

end Thread

/-- Where a thread goes without taking a character, in order of preference. -/
def Instr.ways (before after : Option Char) (offset : Nat) (t : Thread) : Instr → List Thread
  | take _ => []
  | look l => if l.holds before after then [t.step] else []
  | skip greedy n =>
    let beyond := t.goTo (t.next + 1 + n)
    if greedy then [t.step, beyond] else [beyond, t.step]
  | again greedy n =>
    let back := t.goTo (t.next - n)
    if greedy then [back, t.step] else [t.step, back]
  | jump n => [t.goTo (t.next + 1 + n)]
  | back n => [t.goTo (t.next - n)]
  | opened => [(t.openAt offset).step]
  | closed name => [(t.closeAt name offset).step]

/-! ## Reading a text -/

/-- Follows threads, the first one as far as it goes before the next one, up to where they take a
character or have matched. `seen` holds the instructions come to so far and `found` the threads that
wait there, the last first. -/
def explore (program : Array Instr) (before after : Option Char) (offset : Nat) :
    (fuel : Nat) → List Thread → (seen : NatSet) → (found : List Thread) → List Thread
  | 0, _, _, found => found.reverse
  | _, [], _, found => found.reverse
  | fuel + 1, t :: ts, seen, found =>
    -- a preferred thread has been here
    if seen.mem t.next then explore program before after offset fuel ts seen found
    else
      let seen := seen.insert t.next
      match program[t.next]? with
      -- behind the last instruction or before a character: here it waits
      | none | some (.take _) => explore program before after offset fuel ts seen (t :: found)
      | some i =>
        explore program before after offset fuel (i.ways before after offset t ++ ts) seen found

/-- The threads that wait at a place. Every instruction is come to once and leads on to two others
at most, which bounds the number of steps. -/
def waiting (program : Array Instr) (before after : Option Char) (offset : Nat)
    (threads : List Thread) : List Thread :=
  explore program before after offset (threads.length + 2 * program.size + 3) threads .empty []

/-- The thread after a character, when it takes that one. -/
def Thread.take? (program : Array Instr) (c : Char) (t : Thread) : Option Thread :=
  match program[t.next]? with
  | some (.take s) => if s.mem c then some t.step else none
  | _ => none

/-- Whether the thread has arrived behind the last instruction. -/
def Thread.isDone (program : Array Instr) (t : Thread) : Bool :=
  program.size ≤ t.next

/-- Reads a text on from a place. `threads` have come to the place and `best` is the match preferred
so far; as long as there is none, a new thread begins at every place. -/
def search (program : Array Instr) (best : Option Thread) (before : Option Char) (offset : Nat)
    (threads : List Thread) : Text → Option Thread
  | [] => ((waiting program before none offset threads).find? (·.isDone program)).or best
  | c :: s =>
    let found := waiting program before (some c) offset threads
    -- what still runs is preferred to the match so far, so its match takes the place of that one
    let best := (found.find? (·.isDone program)).or best
    -- threads after a finished one are preferred less than its match
    let live := (found.takeWhile (!·.isDone program)).filterMap (·.take? program c)
    match best, live with
    | some _, [] => best
    -- no new thread: a match of it would begin later
    | some _, _ => search program best (some c) (offset + 1) live s
    | none, _ => search program best (some c) (offset + 1) (live ++ [.start]) s

/-- What groups are bound to in the preferred match among those that begin at the earliest place,
the latest first. -/
def Expr.find? (e : Expr) (s : Text) : Option (List (Text × Text)) :=
  (search e.code.toArray none none 0 [.start] s).map (·.groups s)

end Routing.Regex
