import Routing.Text

/-!
# Sets of characters as ranges

The character properties that the library needs (blank, letter, digit, …) are data: each is a table
of **ascending ranges** of code points with gaps between them, and a character has the property when
one of the ranges holds it. The tables live in modules named for their property; here are the one
look-up that they share and the order that makes its early stop right:

* `CharRanges.mem` — look-up, which stops at the first range beyond the character;
* `CharRanges.Ascending` — each range is non-empty and a gap separates it from the next;
* `CharRanges.mem_iff` — on an ascending table the look-up finds exactly the characters of its
  ranges.
-/

namespace Routing

/-- Ranges of code points, both ends included. -/
abbrev CharRanges := List (Nat × Nat)

namespace CharRanges

/-- Whether one of the ranges holds the code point `n`; a range that begins beyond `n` ends the
search. -/
def memCode (n : Nat) : CharRanges → Bool
  | [] => false
  | (lo, hi) :: rest => lo ≤ n && (n ≤ hi || memCode n rest)

/-- Whether one of the ranges holds the character. -/
def mem (table : CharRanges) (c : Char) : Bool :=
  memCode c.toNat table

/-- Non-empty ranges, each with a gap between it and the next one. -/
def Ascending : CharRanges → Prop
  | [] => True
  | [(lo, hi)] => lo ≤ hi
  | (lo, hi) :: (lo', hi') :: rest => lo ≤ hi ∧ hi + 1 < lo' ∧ Ascending ((lo', hi') :: rest)

/-- Decides `Ascending` by one walk over the table. -/
def isAscending : CharRanges → Bool
  | [] => true
  | [(lo, hi)] => lo ≤ hi
  | (lo, hi) :: (lo', hi') :: rest => lo ≤ hi && hi + 1 < lo' && isAscending ((lo', hi') :: rest)

theorem isAscending_iff (table : CharRanges) : isAscending table = true ↔ Ascending table := by
  fun_induction isAscending table with
  | case1 => simp [Ascending]
  | case2 => simp [Ascending]
  | case3 lo hi lo' hi' rest ih => simp [Ascending, ih, and_assoc]

/-- In an ascending table every range begins at or after the first one. -/
theorem Ascending.le_of_mem {lo hi : Nat} {rest : CharRanges} (h : Ascending ((lo, hi) :: rest))
    {r : Nat × Nat} (hr : r ∈ rest) : lo ≤ r.1 := by
  induction rest generalizing lo hi with
  | nil => simp at hr
  | cons next rest ih =>
    obtain ⟨lo', hi'⟩ := next
    obtain ⟨h₁, h₂, h₃⟩ := h
    rcases List.mem_cons.1 hr with rfl | hr
    · simp only; omega
    · have := ih h₃ hr; omega

theorem Ascending.tail {r : Nat × Nat} {rest : CharRanges} (h : Ascending (r :: rest)) :
    Ascending rest := by
  cases rest with
  | nil => trivial
  | cons next rest => exact h.2.2

/-- In an ascending table no range is empty. -/
theorem Ascending.le_of_mem_self {table : CharRanges} (h : Ascending table) {r : Nat × Nat}
    (hr : r ∈ table) : r.1 ≤ r.2 := by
  induction table with
  | nil => cases hr
  | cons next rest ih =>
    rcases List.mem_cons.1 hr with rfl | hr
    · cases rest with
      | nil => exact h
      | cons _ _ => exact h.1
    · exact ih h.tail hr

theorem memCode_iff {n : Nat} {table : CharRanges} (h : Ascending table) :
    memCode n table = true ↔ ∃ r ∈ table, r.1 ≤ n ∧ n ≤ r.2 := by
  induction table with
  | nil => simp [memCode]
  | cons r rest ih =>
    obtain ⟨lo, hi⟩ := r
    have ih := ih h.tail
    simp only [memCode, Bool.and_eq_true, Bool.or_eq_true, decide_eq_true_eq, ih, List.mem_cons]
    constructor
    · rintro ⟨hlo, hhi | ⟨r, hr, hn⟩⟩
      · exact ⟨_, .inl rfl, hlo, hhi⟩
      · exact ⟨r, .inr hr, hn⟩
    · rintro ⟨r, rfl | hr, hn⟩
      · exact ⟨hn.1, .inl hn.2⟩
      · exact ⟨Nat.le_trans (h.le_of_mem hr) hn.1, .inr ⟨r, hr, hn⟩⟩

theorem mem_iff {table : CharRanges} (h : Ascending table) (c : Char) :
    table.mem c = true ↔ ∃ r ∈ table, r.1 ≤ c.toNat ∧ c.toNat ≤ r.2 :=
  memCode_iff h

end CharRanges

end Routing
