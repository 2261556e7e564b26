import Routing.Text.Blank
import Routing.Text.Bounds
import Routing.Text.Digit
import Routing.Text.Fold
import Routing.Text.Word

/-!
# Sets of characters

What one position of an expression may hold. A set is kept by its bounds, so that two sets built in
different ways are equal when they have the same members.

* `CharSet.mem` — membership
* `CharSet.union`, `CharSet.inter`, `CharSet.diff`, `CharSet.symmDiff`, `CharSet.compl` — the set
  operations; `CharSet.mem_union` and its companions say what each of them holds
* `CharSet.folded`, `CharSet.foldedAscii` — closure under case, over all characters or over the
  ASCII letters alone
* `CharSet.ascii?` — the named ASCII classes
-/

namespace Routing.Regex

/-- A set of characters, by the code points at which membership changes. -/
structure CharSet where
  /-- The code points at which membership changes. -/
  bounds : List Nat
  /-- They are in ascending order. -/
  ascending : bounds.Pairwise (· < ·)
deriving DecidableEq

namespace CharSet

def memCode (s : CharSet) (n : Nat) : Bool :=
  Bounds.inside false s.bounds n

def mem (s : CharSet) (c : Char) : Bool :=
  s.memCode c.toNat

/-! ## Building sets -/

def empty : CharSet := ⟨[], .nil⟩

def all : CharSet := ⟨[0, 0x110000], by decide⟩

theorem pairwise_codes {lo hi : Nat} (h : lo ≤ hi) : [lo, hi + 1].Pairwise (· < ·) := by
  simp only [List.pairwise_cons, List.mem_singleton, forall_eq]
  exact ⟨Nat.lt_succ_of_le h, by simp⟩

/-- The code points from `lo` to `hi`. -/
def codes (lo hi : Nat) : CharSet :=
  if h : lo ≤ hi then ⟨[lo, hi + 1], pairwise_codes h⟩ else empty

def range (lo hi : Char) : CharSet :=
  codes lo.toNat hi.toNat

def single (c : Char) : CharSet :=
  range c c

/-- The characters of a table. -/
def ofTable (table : CharRanges) (h : table.Ascending) : CharSet :=
  ⟨Bounds.ofRanges table, Bounds.pairwise_ofRanges h⟩

/-- The characters for which `f` holds of their membership in two sets. -/
def combine (f : Bool → Bool → Bool) (a b : CharSet) : CharSet :=
  ⟨Bounds.combine f false false a.bounds b.bounds,
    Bounds.pairwise_combine f a.ascending b.ascending⟩

def union (a b : CharSet) : CharSet := combine (· || ·) a b

def inter (a b : CharSet) : CharSet := combine (· && ·) a b

/-- The characters of the first set that the second does not hold. -/
def diff (a b : CharSet) : CharSet := combine (fun x y => x && !y) a b

/-- The characters of exactly one of the two sets. -/
def symmDiff (a b : CharSet) : CharSet := combine (· != ·) a b

def compl (a : CharSet) : CharSet := all.diff a

def unions (sets : List CharSet) : CharSet :=
  sets.foldl union empty

def ofRanges (ranges : List (Char × Char)) : CharSet :=
  unions (ranges.map fun r => range r.1 r.2)

/-! ## Membership -/

@[simp] theorem mem_empty (c : Char) : empty.mem c = false := rfl

theorem toNat_lt (c : Char) : c.toNat < 0x110000 := by
  rcases c.valid with h | h
  · have : c.toNat < 0xD800 := h
    omega
  · exact h.2

@[simp] theorem mem_all (c : Char) : all.mem c = true := by
  simp [all, mem, memCode, Bounds.inside, toNat_lt c]

theorem memCode_codes (lo hi n : Nat) : (codes lo hi).memCode n = (lo ≤ n && n ≤ hi) := by
  unfold codes
  split
  · simp only [memCode, Bounds.inside, Bool.not_false, Bool.not_true]
    by_cases h₁ : n < lo
    · simp [h₁, Nat.not_le.2 h₁]
    · by_cases h₂ : n < hi + 1
      · simp [h₁, h₂, Nat.not_lt.1 h₁, Nat.le_of_lt_succ h₂]
      · simp [h₁, h₂, show ¬ n ≤ hi by omega]
  · simp only [empty, memCode, Bounds.inside, Bool.false_eq, Bool.and_eq_false_iff,
      decide_eq_false_iff_not]
    omega

theorem mem_range (lo hi c : Char) : (range lo hi).mem c = (lo ≤ c && c ≤ hi) :=
  memCode_codes lo.toNat hi.toNat c.toNat

theorem mem_single (c d : Char) : (single c).mem d = decide (d = c) := by
  rw [single, mem_range, ← Bool.decide_and]
  exact decide_eq_decide.2 ⟨fun h => Char.le_antisymm h.2 h.1,
    fun h => h ▸ ⟨Char.le_refl _, Char.le_refl _⟩⟩

theorem mem_ofTable {table : CharRanges} (h : table.Ascending) (c : Char) :
    (ofTable table h).mem c = table.mem c :=
  Bounds.inside_ofRanges table c.toNat

theorem mem_combine {f : Bool → Bool → Bool} (hf : f false false = false) (a b : CharSet)
    (c : Char) : (combine f a b).mem c = f (a.mem c) (b.mem c) := by
  have := Bounds.inside_combine f (x := false) (y := false) a.ascending b.ascending c.toNat
  rw [hf] at this
  exact this

@[simp] theorem mem_union (a b : CharSet) (c : Char) : (a.union b).mem c = (a.mem c || b.mem c) :=
  mem_combine rfl a b c

@[simp] theorem mem_inter (a b : CharSet) (c : Char) : (a.inter b).mem c = (a.mem c && b.mem c) :=
  mem_combine rfl a b c

@[simp] theorem mem_diff (a b : CharSet) (c : Char) : (a.diff b).mem c = (a.mem c && !b.mem c) :=
  mem_combine rfl a b c

@[simp] theorem mem_symmDiff (a b : CharSet) (c : Char) :
    (a.symmDiff b).mem c = (a.mem c != b.mem c) :=
  mem_combine rfl a b c

@[simp] theorem mem_compl (a : CharSet) (c : Char) : a.compl.mem c = !a.mem c := by
  simp [compl]

/-! ## Case -/

/-- The set with both characters of each pair of which it holds one. -/
def pairUp (pairs : List (Nat × Nat)) (s : CharSet) : CharSet :=
  pairs.foldl
    (fun t p =>
      -- asked of `s`: what this round adds brings in nothing more
      if s.memCode p.1 = s.memCode p.2 then t
      else (t.union (codes p.1 p.1)).union (codes p.2 p.2))
    s

/-- Every case variant of a character of the set. The first round adds the folded characters and the
second one whatever else folds to them. -/
def folded (s : CharSet) : CharSet :=
  (s.pairUp foldPairs).pairUp foldPairs

/-- The ASCII capitals, each with its small letter. -/
def asciiPairs : List (Nat × Nat) :=
  (List.range 26).map fun i => ('A'.toNat + i, 'a'.toNat + i)

/-- The set and the other case of its ASCII letters. -/
def foldedAscii (s : CharSet) : CharSet :=
  s.pairUp asciiPairs

/-! ## Classes -/

/-- Decimal digits of every script. -/
def decimal : CharSet := ofTable decimalRanges ascending_decimalRanges

def blank : CharSet := ofTable blankRanges ascending_blankRanges

/-- Word characters of every script. -/
def word : CharSet := ofTable wordRanges ascending_wordRanges

def asciiDigit : CharSet := range '0' '9'

def asciiBlank : CharSet := ofRanges [('\t', '\r'), (' ', ' ')]

/-- The ASCII letters, digits and the underscore. -/
def asciiWord : CharSet := ofRanges [('0', '9'), ('A', 'Z'), ('_', '_'), ('a', 'z')]

def ascii? (name : Text) : Option CharSet :=
  (table.find? fun e => e.1.toList = name).map fun e => ofRanges e.2
where
  /-- The names and their ranges. -/
  table : List (String × List (Char × Char)) :=
    [("alnum", [('0', '9'), ('A', 'Z'), ('a', 'z')]),
     ("alpha", [('A', 'Z'), ('a', 'z')]),
     ("ascii", [('\x00', '\x7F')]),
     ("blank", [('\t', '\t'), (' ', ' ')]),
     ("cntrl", [('\x00', '\x1F'), ('\x7F', '\x7F')]),
     ("digit", [('0', '9')]),
     ("graph", [('!', '~')]),
     ("lower", [('a', 'z')]),
     ("print", [(' ', '~')]),
     ("punct", [('!', '/'), (':', '@'), ('[', '\x60'), ('\x7b', '~')]),
     ("space", [('\t', '\r'), (' ', ' ')]),
     ("upper", [('A', 'Z')]),
     ("word", [('0', '9'), ('A', 'Z'), ('_', '_'), ('a', 'z')]),
     ("xdigit", [('0', '9'), ('A', 'F'), ('a', 'f')])]

end CharSet

end Routing.Regex
