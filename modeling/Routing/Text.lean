/-!
# Text

Patterns, paths, parameter names and messages are **lists of characters**, so that every function
on them is a recursion on the text itself. This module holds the few operations that the list
library does not name:

* `Text.afterPrefix?`, `Text.beforeSuffix?` — what a text holds beyond a known beginning or end,
  with `afterPrefix?_eq_some_iff` tying the first to `++`;
* `Text.cut?` — the two sides of the first occurrence of a character;
* `Text.trimEnd`, `Text.trim` — a text without the characters of a class at its end, at both ends;
* `Text.ofInt`, `Text.ofBool` — the decimal and the truth-value forms used in paths.
-/

namespace Routing

/-- A text is the list of its characters. -/
abbrev Text := List Char

instance : LawfulBEq Text := inferInstance

namespace Text

/-! ## Beginnings and ends -/

/-- What follows `p` in a text that begins with `p`. -/
def afterPrefix? : (p s : Text) → Option Text
  | [], s => some s
  | _ :: _, [] => none
  | c :: p, d :: s => if c = d then afterPrefix? p s else none

theorem afterPrefix?_eq_some_iff {p s t : Text} : afterPrefix? p s = some t ↔ s = p ++ t := by
  induction p generalizing s with
  | nil => simp [afterPrefix?]
  | cons c p ih =>
    cases s with
    | nil => simp [afterPrefix?]
    | cons d s =>
      by_cases h : c = d
      · simp [afterPrefix?, h, ih]
      · simp [afterPrefix?, h, Ne.symm h]

/-- What precedes `q` in a text that ends with `q`. -/
def beforeSuffix? (q s : Text) : Option Text :=
  (afterPrefix? q.reverse s.reverse).map List.reverse

/-- The two sides of the first `sep`. -/
def cut? (sep : Char) : Text → Option (Text × Text)
  | [] => none
  | c :: s =>
    if c = sep then some ([], s)
    else (cut? sep s).map fun (before, after) => (c :: before, after)

theorem cut?_append {sep : Char} {t : Text} (h : sep ∉ t) (s : Text) :
    cut? sep (t ++ sep :: s) = some (t, s) := by
  induction t with
  | nil => simp [cut?]
  | cons c t ih =>
    obtain ⟨hc, ht⟩ := not_or.1 (mt List.mem_cons.2 h)
    simp [cut?, Ne.symm hc, ih ht]

theorem cut?_of_not_mem {sep : Char} {s : Text} (h : sep ∉ s) : cut? sep s = none := by
  induction s with
  | nil => rfl
  | cons c s ih =>
    obtain ⟨hc, hs⟩ := not_or.1 (mt List.mem_cons.2 h)
    simp [cut?, Ne.symm hc, ih hs]

/-- The two sides of the last `sep`. -/
def cutLast? (sep : Char) (s : Text) : Option (Text × Text) :=
  (cut? sep s.reverse).map fun (after, before) => (before.reverse, after.reverse)

/-! ## Trimming -/

/-- The text without the run of `p`-characters at its end. -/
def trimEnd (p : Char → Bool) (s : Text) : Text :=
  (s.reverse.dropWhile p).reverse

/-- The text without the runs of `p`-characters at both ends. -/
def trim (p : Char → Bool) (s : Text) : Text :=
  trimEnd p (s.dropWhile p)

/-! ## Case

Only the ASCII letters have two cases here; every other character is its own. -/

/-- ASCII letters in upper case. -/
def upper (s : Text) : Text :=
  s.map Char.toUpper

/-- Equality up to the case of ASCII letters. -/
def sameLetters (s t : Text) : Bool :=
  upper s = upper t

/-! ## Values written as text -/

/-- Decimal digits, the most significant first. -/
def ofNat (n : Nat) : Text :=
  Nat.toDigits 10 n

/-- Decimal digits after a minus sign when the number is negative. -/
def ofInt : Int → Text
  | .ofNat n => ofNat n
  | .negSucc n => '-' :: ofNat (n + 1)

/-- The words for the two truth values. -/
def ofBool : Bool → Text
  | true => "true".toList
  | false => "false".toList

end Text

end Routing
