import Routing.Regex.Fault
import Routing.Regex.Syntax
import Routing.Text.Blank
import Routing.Text.Digit
import Routing.Text.Letter
import Routing.Text.Numeral

/-!
# Reading expressions

An expression is read from the left, one **item** at a time, onto a state that holds the parts of
the current sequence, the finished branches beside it and the groups around it. Reading a text is
therefore reading its beginning and going on from the state reached, which is what lets an
expression be built by splicing texts together.

* `Reader.gap` — the blanks and comments that extended mode skips
* `Reader.escape`, `Reader.charClass`, `Reader.counts`, `Reader.groupHead` — the items that span
  several characters; each returns the rest of the text, never longer than what it was given
* `Reader.State`, `Reader.step` — one item onto the state
* `Syntax.read` — a whole text
-/

namespace Routing.Regex

namespace Reader

/-! ## Gaps

In extended mode blanks and comments may stand between items and inside some of them. A comment
runs from `#` through the next line feed. -/

/-- Skips blanks and comments; `comment` tells that one has begun. -/
def skipGap : (comment : Bool) → Text → Text
  | _, [] => []
  | true, c :: s => skipGap (c ≠ '\n') s
  | false, c :: s =>
    if isBlank c then skipGap false s
    else if c = '#' then skipGap true s
    else c :: s

/-- The text after the gap that extended mode skips. -/
def gap (extended : Bool) (s : Text) : Text :=
  if extended then skipGap false s else s

theorem length_skipGap_le (comment : Bool) (s : Text) : (skipGap comment s).length ≤ s.length := by
  induction s generalizing comment with
  | nil => cases comment <;> exact Nat.le_refl _
  | cons c s ih =>
    cases comment with
    | true => exact Nat.le_succ_of_le (ih _)
    | false =>
      simp only [skipGap]
      split
      · exact Nat.le_succ_of_le (ih _)
      · split
        · exact Nat.le_succ_of_le (ih _)
        · exact Nat.le_refl _

theorem length_gap_le (x : Bool) (s : Text) : (gap x s).length ≤ s.length := by
  cases x
  · exact Nat.le_refl _
  · exact length_skipGap_le ..

/-- The run of `p`-characters at the beginning, with a gap allowed after each, and the rest. -/
def spaced (x : Bool) (p : Char → Bool) : Text → Text × Text
  | [] => ([], [])
  | c :: s =>
    if p c then
      let (run, rest) := spaced x p (gap x s)
      (c :: run, rest)
    else ([], c :: s)
termination_by s => s.length
decreasing_by exact Nat.lt_succ_of_le (length_gap_le x s)

theorem length_spaced_le (x : Bool) (p : Char → Bool) (s : Text) :
    (spaced x p s).2.length ≤ s.length := by
  fun_induction spaced x p s with
  | case1 => exact Nat.le_refl _
  | case2 c s h run rest hr ih =>
    rw [hr] at ih
    exact Nat.le_succ_of_le (Nat.le_trans ih (length_gap_le x s))
  | case3 => exact Nat.le_refl _

/-! ## Escapes -/

inductive Escape where
  /-- A character; `byte` when it was written as two hexadecimal digits. -/
  | char (c : Char) (byte : Bool)
  | short (kind : ShortClass) (negated : Bool)
  | property (p : Property) (negated : Bool)
  | anchor (kind : Anchor)

/-- Exactly `n` hexadecimal digits, with a gap allowed before each. -/
def hexDigits (x : Bool) : (n : Nat) → Text → Option (Text × Text)
  | 0, s => some ([], s)
  | n + 1, s =>
    match gap x s with
    | [] => none
    | c :: s =>
      if (Numeral.hexValue? c).isSome then
        (hexDigits x n s).map fun (digits, rest) => (c :: digits, rest)
      else none

theorem length_of_hexDigits {x : Bool} {n : Nat} {s digits rest : Text}
    (h : hexDigits x n s = some (digits, rest)) : rest.length ≤ s.length := by
  induction n generalizing s digits with
  | zero => simp only [hexDigits] at h; cases h; exact Nat.le_refl _
  | succ n ih =>
    simp only [hexDigits] at h
    have hgap := length_gap_le x s
    split at h
    · cases h
    · next c t hs =>
      rw [hs] at hgap
      split at h
      · obtain ⟨⟨d, r⟩, hd, he⟩ := Option.map_eq_some_iff.1 h
        cases he
        exact Nat.le_trans (ih hd) (Nat.le_trans (Nat.le_succ _) hgap)
      · cases h

/-- A code point after `\x`, `\u` or `\U`: hexadecimal digits in braces, or exactly `n` of them. -/
def hexEscape (x : Bool) (n : Nat) (s : Text) : Except Fault (Escape × Text) :=
  match gap x s with
  | '{' :: s =>
    match spaced x (fun c => (Numeral.hexValue? c).isSome) (gap x s) with
    -- empty braces name no character
    | (digits@(_ :: _), '}' :: rest) =>
      match Numeral.charOf? (Numeral.value 16 digits) with
      | some c => .ok (.char c false, rest)
      | none => .error .hex
    | _ => .error .hex
  | s =>
    match hexDigits x n s with
    | none => .error .hex
    | some (digits, rest) =>
      match Numeral.charOf? (Numeral.value 16 digits) with
      -- only `\x` with its two digits can mean a byte
      | some c => .ok (.char c (n = 2), rest)
      | none => .error .hex

theorem length_of_hexEscape {x : Bool} {n : Nat} {s rest : Text} {e : Escape}
    (h : hexEscape x n s = .ok (e, rest)) : rest.length ≤ s.length := by
  unfold hexEscape at h
  have hgap := length_gap_le x s
  split at h
  · next t hs =>
    rw [hs] at hgap
    have hlen := length_spaced_le x (fun c => (Numeral.hexValue? c).isSome) (gap x t)
    have hgap' := length_gap_le x t
    split at h
    · next hsp =>
      rw [hsp] at hlen
      split at h
      · cases h; simp only [List.length_cons] at *; omega
      · cases h
    · cases h
  · split at h
    · cases h
    · next hd =>
      have := length_of_hexDigits hd
      split at h
      · cases h; omega
      · cases h

/-- The place that a word in braces after `\b` names. -/
def Anchor.ofName? (name : Text) : Option Anchor :=
  if name = "start".toList then some .wordStart
  else if name = "end".toList then some .wordEnd
  else if name = "start-half".toList then some .wordStartHalf
  else if name = "end-half".toList then some .wordEndHalf
  else none

/-- What may follow `\b`: a name in braces, or nothing that belongs to it. Braces that begin with
neither a letter nor a hyphen are left for a count. -/
def boundary (x : Bool) (s : Text) : Except Fault (Escape × Text) :=
  match s with
  | '{' :: t =>
    match gap x t with
    | [] => .error .boundary
    | c :: t =>
      if c.isAlpha || c = '-' then
        match spaced x (fun c => c.isAlpha || c = '-') (c :: t) with
        | (name, '}' :: rest) =>
          match Anchor.ofName? name with
          | some a => .ok (.anchor a, rest)
          | none => .error .boundary
        | _ => .error .boundary
      else .ok (.anchor .boundary, s)
  | _ => .ok (.anchor .boundary, s)

theorem length_of_boundary {x : Bool} {s rest : Text} {e : Escape}
    (h : boundary x s = .ok (e, rest)) : rest.length ≤ s.length := by
  unfold boundary at h
  split at h
  · next t =>
    have hgap := length_gap_le x t
    split at h
    · cases h
    · next c u hu =>
      rw [hu] at hgap
      split at h
      · have hlen := length_spaced_le x (fun c => c.isAlpha || c = '-') (c :: u)
        split at h
        · next hsp =>
          rw [hsp] at hlen
          split at h
          · cases h; simp only [List.length_cons] at *; omega
          · cases h
        · cases h
      · cases h; exact Nat.le_refl _
  · cases h; exact Nat.le_refl _

/-- What follows `\p` or `\P`: a name in braces, or the letter of a general category. -/
def property (x negated : Bool) (s : Text) : Except Fault (Escape × Text) :=
  match gap x s with
  | [] => .error .escape
  | '{' :: s =>
    match spaced x (· ≠ '}') (gap x s) with
    -- whether anything has the name is asked later, when the flags are known
    | (name, '}' :: rest) => .ok (.property (.ofText name) negated, rest)
    | _ => .error .escape
  | c :: rest =>
    if c.isAlpha then .ok (.property (.letter c) negated, rest) else .error .property

theorem length_of_property {x negated : Bool} {s rest : Text} {e : Escape}
    (h : property x negated s = .ok (e, rest)) : rest.length ≤ s.length := by
  unfold property at h
  have hgap := length_gap_le x s
  split at h
  · cases h
  · next t ht =>
    rw [ht] at hgap
    have hlen := length_spaced_le x (· ≠ '}') (gap x t)
    have hgap' := length_gap_le x t
    split at h
    · next hsp =>
      rw [hsp] at hlen
      cases h
      simp only [List.length_cons] at *
      omega
    · cases h
  · next hs =>
    rw [hs] at hgap
    split at h
    · cases h; exact Nat.le_trans (Nat.le_succ _) hgap
    · cases h

/-- Whether a backslash takes away the character's special meaning: every ASCII character but the
letters, the digits and the angle brackets. -/
def isEscapable (c : Char) : Bool :=
  c.toNat < 0x80 && !c.isAlphanum && c ≠ '<' && c ≠ '>'

/-- Reads an escape from the text after its backslash. -/
def escape (x : Bool) : Text → Except Fault (Escape × Text)
  | [] => .error .escape
  | c :: s =>
    -- what a group has matched cannot be asked for again
    if c.isDigit then .error .backReference
    else if isEscapable c then .ok (.char c false, s)
    else match c with
      | 'x' => hexEscape x 2 s
      | 'u' => hexEscape x 4 s
      | 'U' => hexEscape x 8 s
      | 'p' => property x false s
      | 'P' => property x true s
      | 'd' => .ok (.short .digit false, s)
      | 'D' => .ok (.short .digit true, s)
      | 's' => .ok (.short .blank false, s)
      | 'S' => .ok (.short .blank true, s)
      | 'w' => .ok (.short .word false, s)
      | 'W' => .ok (.short .word true, s)
      | 'a' => .ok (.char '\x07' false, s)
      | 'f' => .ok (.char '\x0C' false, s)
      | 't' => .ok (.char '\t' false, s)
      | 'n' => .ok (.char '\n' false, s)
      | 'r' => .ok (.char '\r' false, s)
      | 'v' => .ok (.char '\x0B' false, s)
      | 'A' => .ok (.anchor .textStart, s)
      | 'z' => .ok (.anchor .textEnd, s)
      | 'B' => .ok (.anchor .notBoundary, s)
      | '<' => .ok (.anchor .wordStart, s)
      | '>' => .ok (.anchor .wordEnd, s)
      | 'b' => boundary x s
      | _ => .error .escape

theorem length_of_escape {x : Bool} {s rest : Text} {e : Escape}
    (h : escape x s = .ok (e, rest)) : rest.length ≤ s.length := by
  cases s with
  | nil => simp [escape] at h
  | cons c s =>
    simp only [escape] at h
    refine Nat.le_trans ?_ (Nat.le_succ s.length)
    split at h
    · cases h
    · split at h
      · cases h; exact Nat.le_refl _
      · split at h
        all_goals first
          | exact length_of_hexEscape h
          | exact length_of_property h
          | exact length_of_boundary h
          | (cases h; exact Nat.le_refl _)
          | cases h

/-! ## Classes

A class is read onto the level of its innermost open bracket; the levels around it wait until it is
closed. -/

structure ClassLevel where
  /-- Whether the class is the complement of what it lists. -/
  negated : Bool
  /-- The items read since the bracket or the last operator, the last first. -/
  items : List ClassSyntax
  /-- The operator before them and its left operand. -/
  pending : Option (ClassOp × ClassSyntax)

namespace ClassLevel

def push (level : ClassLevel) (item : ClassSyntax) : ClassLevel :=
  { level with items := item :: level.items }

/-- Everything read in the bracket. -/
def body (level : ClassLevel) : ClassSyntax :=
  let items := ClassSyntax.ofItems level.items.reverse
  match level.pending with
  | some (kind, lhs) => .op kind lhs items
  | none => items

/-- After an operator, everything before it is the left operand. -/
def operator (level : ClassLevel) (kind : ClassOp) : ClassLevel :=
  -- no operator binds tighter than another: each takes all that was read before it
  { level with items := [], pending := some (kind, level.body) }

end ClassLevel

/-- The hyphens at the beginning of a class, which stand for themselves, with gaps after them. -/
def leadingHyphens (x : Bool) (s : Text) : List ClassSyntax × Text :=
  match spaced x (· = '-') s with
  | (run, rest) => (run.map ClassSyntax.char, rest)

/-- The caret that makes a class a complement. -/
def classCaret (x : Bool) (s : Text) : Bool × Text :=
  match gap x s with
  | '^' :: s => (true, gap x s)
  | s => (false, s)

theorem length_classCaret_le (x : Bool) (s : Text) : (classCaret x s).2.length ≤ s.length := by
  have hgap := length_gap_le x s
  unfold classCaret
  split
  · next t ht =>
    rw [ht] at hgap
    exact Nat.le_trans (length_gap_le x t) (Nat.le_trans (Nat.le_succ _) hgap)
  · exact hgap

/-- What follows an opening bracket: a caret, hyphens, and a closing bracket that stands for itself
because a class is never empty. -/
def classHead (x : Bool) (s : Text) : ClassLevel × Text :=
  let (negated, s) := classCaret x s
  match leadingHyphens x s with
  | ([], ']' :: s) => (⟨negated, [.char ']'], none⟩, gap x s)
  -- behind a hyphen a closing bracket closes: `[-]` holds the hyphen
  | (items, s) => (⟨negated, items, none⟩, s)

theorem length_classHead_le (x : Bool) (s : Text) : (classHead x s).2.length ≤ s.length := by
  have hcaret := length_classCaret_le x s
  have hlen := length_spaced_le x (· = '-') (classCaret x s).2
  unfold classHead leadingHyphens
  dsimp only
  split
  · next u hu =>
    have hg := length_gap_le x u
    rw [(Prod.mk.inj hu).2] at hlen
    simp only [List.length_cons] at hlen
    simp only
    omega
  · next items u _ hu =>
    rw [(Prod.mk.inj hu).2] at hlen
    exact Nat.le_trans hlen hcaret

/-- A named class, from the text after its opening bracket. -/
def namedClass? (s : Text) : Option (ClassSyntax × Text) :=
  match s with
  | ':' :: s =>
    let (negated, s) := match s with
      | '^' :: s => (true, s)
      | s => (false, s)
    match s.dropWhile (· ≠ ':') with
    | ':' :: ']' :: rest =>
      if s.takeWhile (· ≠ ':') ∈ ClassSyntax.names then
        some (.named (s.takeWhile (· ≠ ':')) negated, rest)
      -- no fault: with another name the bracket opens a nested class
      else none
    | _ => none
  | _ => none

theorem length_of_namedClass? {s rest : Text} {item : ClassSyntax}
    (h : namedClass? s = some (item, rest)) : rest.length ≤ s.length := by
  unfold namedClass? at h
  split at h
  · next t =>
    split at h
    next u hu =>
    have hut : u.length ≤ t.length := by
      split at hu <;> cases hu
      · exact Nat.le_succ _
      · exact Nat.le_refl _
    split at h
    · next hd =>
      have hlen := (List.dropWhile_suffix (· ≠ ':') (l := u)).length_le
      rw [hd] at hlen
      split at h
      · cases h
        simp only [List.length_cons] at *
        omega
      · cases h
    · cases h
  · cases h

/-- One end of a range: a character, written plainly or as an escape, or another escape. -/
def classAtom (x : Bool) : Text → Except Fault (Escape × Text)
  | [] => .error .classUnclosed
  | '\\' :: s => escape x s
  | c :: s => .ok (.char c false, s)

theorem length_of_classAtom {x : Bool} {s rest : Text} {e : Escape}
    (h : classAtom x s = .ok (e, rest)) : rest.length < s.length := by
  unfold classAtom at h
  split at h
  · cases h
  · exact Nat.lt_succ_of_le (length_of_escape h)
  · cases h; exact Nat.lt_succ_self _

/-- The character that follows a hyphen when blanks are passed over, and with them a `#` that begins
a comment; the very next one when nothing else follows. -/
def peekPast (x : Bool) (s : Text) : Option Char :=
  if x then
    match s.dropWhile isBlank with
    | [] => s.head?
    | '#' :: t =>
      match t.dropWhile isBlank with
      | [] => s.head?
      | c :: _ => some c
    | c :: _ => some c
  else s.head?

/-- The escape as a member of a class. -/
def Escape.member : Escape → Except Fault ClassSyntax
  | .char c _ => .ok (.char c)
  | .short kind negated => .ok (.short kind negated)
  | .property p negated => .ok (.property p negated)
  | .anchor _ => .error .classItem

/-- A character, a short class, a property or a range. A hyphen makes a range unless the class ends
after it or another hyphen follows. -/
def classItem (x : Bool) (s : Text) : Except Fault (ClassSyntax × Text) := do
  let (first, s) ← classAtom x s
  match gap x s with
  | [] => .error .classUnclosed
  | '-' :: t =>
    if peekPast x t = some ']' ∨ peekPast x t = some '-' then
      return (← first.member, '-' :: t)
    else
      let (last, rest) ← classAtom x (gap x t)
      -- a short class or a property has no first character, so neither can bound a range
      match first, last with
      | .char lo _, .char hi _ =>
        if lo ≤ hi then return (.range lo hi, rest) else .error .classRange
      | _, _ => .error .classRange
  | s => return (← first.member, s)

theorem length_of_classItem {x : Bool} {s rest : Text} {item : ClassSyntax}
    (h : classItem x s = .ok (item, rest)) : rest.length < s.length := by
  unfold classItem at h
  cases ha : classAtom x s with
  | error e => rw [ha] at h; cases h
  | ok p =>
    obtain ⟨first, t⟩ := p
    rw [ha] at h
    have hlen := length_of_classAtom ha
    have hgap := length_gap_le x t
    simp only [bind, Except.bind, pure, Except.pure] at h
    split at h
    · cases h
    · next u hu =>
      rw [hu] at hgap
      split at h
      · cases hm : first.member with
        | error e => rw [hm] at h; cases h
        | ok m => rw [hm] at h; cases h; omega
      · cases hb : classAtom x (gap x u) with
        | error e => rw [hb] at h; cases h
        | ok q =>
          obtain ⟨last, r⟩ := q
          rw [hb] at h
          have hlen' := length_of_classAtom hb
          have hgap' := length_gap_le x u
          simp only [List.length_cons] at hgap
          simp only at h
          split at h
          · split at h
            · cases h; omega
            · cases h
          · cases h
    · cases hm : first.member with
      | error e => rw [hm] at h; cases h
      | ok m => rw [hm] at h; cases h; omega

/-- Reads on to the end of the outermost open class. -/
def classRest (x : Bool) (level : ClassLevel) (around : List ClassLevel) (s : Text) :
    Except Fault (Syntax × Text) :=
  match _hs : gap x s with
  | [] => .error .classUnclosed
  | '[' :: t =>
    -- a named class is one item; any other bracket opens a level
    match _hn : namedClass? t with
    | some (item, rest) => classRest x (level.push item) around rest
    | none => classRest x (classHead x t).1 (level :: around) (classHead x t).2
  | ']' :: t =>
    match around with
    | [] => .ok (.bracket level.negated level.body, t)
    | outer :: around =>
      classRest x (outer.push (.bracket level.negated level.body)) around t
  -- two of a kind make an operator; one alone stands for itself
  | '&' :: '&' :: t => classRest x (level.operator .inter) around t
  | '-' :: '-' :: t => classRest x (level.operator .diff) around t
  | '~' :: '~' :: t => classRest x (level.operator .symmDiff) around t
  | c :: t =>
    match _hi : classItem x (c :: t) with
    | .error e => .error e
    | .ok (item, rest) => classRest x (level.push item) around rest
termination_by s.length
decreasing_by
  all_goals
    have hgap := length_gap_le x s
    rw [_hs] at hgap
    simp only [List.length_cons] at hgap
  · have := length_of_namedClass? _hn; omega
  · have := length_classHead_le x t; omega
  · omega
  · omega
  · omega
  · omega
  · have := length_of_classItem _hi; simp only [List.length_cons] at this; omega

theorem length_of_classRest {x : Bool} {level : ClassLevel} {around : List ClassLevel}
    {s rest : Text} {e : Syntax} (h : classRest x level around s = .ok (e, rest)) :
    rest.length ≤ s.length := by
  fun_induction classRest x level around s with
  | case1 => cases h
  | case2 level around s t hs item u hn ih =>
    have hgap := length_gap_le x s
    have := length_of_namedClass? hn
    have := ih h
    rw [hs] at hgap; simp only [List.length_cons] at hgap; omega
  | case3 level around s t hs hn ih =>
    have hgap := length_gap_le x s
    have := length_classHead_le x t
    have := ih h
    rw [hs] at hgap; simp only [List.length_cons] at hgap; omega
  | case4 level s t hs =>
    have hgap := length_gap_le x s
    cases h
    rw [hs] at hgap; simp only [List.length_cons] at hgap; omega
  | case5 level s t hs outer around ih =>
    have hgap := length_gap_le x s
    have := ih h
    rw [hs] at hgap; simp only [List.length_cons] at hgap; omega
  | case6 level around s t hs ih | case7 level around s t hs ih | case8 level around s t hs ih =>
    have hgap := length_gap_le x s
    have := ih h
    rw [hs] at hgap; simp only [List.length_cons] at hgap; omega
  | case9 => cases h
  | case10 level around s c t _ _ _ _ _ hs item u hi ih =>
    have hgap := length_gap_le x s
    have := length_of_classItem hi
    have := ih h
    rw [hs] at hgap; simp only [List.length_cons] at *; omega

/-- A class, from the text after its first bracket. -/
def charClass (x : Bool) (s : Text) : Except Fault (Syntax × Text) :=
  classRest x (classHead x s).1 [] (classHead x s).2

theorem length_of_charClass {x : Bool} {s rest : Text} {e : Syntax}
    (h : charClass x s = .ok (e, rest)) : rest.length ≤ s.length :=
  Nat.le_trans (length_of_classRest h) (length_classHead_le x s)

/-! ## Repetition -/

/-- The greatest count that can be written. -/
def maxCount : Nat := 4294967295

/-- A decimal number with blanks around it, when there are digits. -/
def countNumber (x : Bool) (s : Text) : Except Fault (Option Nat × Text) :=
  -- blanks are passed over here in either mode
  match spaced x Char.isDigit (s.dropWhile isBlank) with
  | ([], rest) => .ok (none, rest.dropWhile isBlank)
  | (digits, rest) =>
    if Numeral.value 10 digits ≤ maxCount then
      .ok (some (Numeral.value 10 digits), rest.dropWhile isBlank)
    else .error .count

theorem length_of_countNumber {x : Bool} {s rest : Text} {n : Option Nat}
    (h : countNumber x s = .ok (n, rest)) : rest.length ≤ s.length := by
  have h₁ := (List.dropWhile_suffix isBlank (l := s)).length_le
  have h₂ := length_spaced_le x Char.isDigit (s.dropWhile isBlank)
  unfold countNumber at h
  split at h
  · next t hs =>
    rw [hs] at h₂
    have h₃ := (List.dropWhile_suffix isBlank (l := t)).length_le
    cases h; simp only at h₂; omega
  · next digits t _ hs =>
    rw [hs] at h₂
    have h₃ := (List.dropWhile_suffix isBlank (l := t)).length_le
    split at h
    · cases h; simp only at h₂; omega
    · cases h

/-- The bounds of a counted repetition and what follows them, from the text after the brace. -/
def countBounds (x : Bool) (s : Text) : Except Fault (Nat × Option Nat × Text) := do
  let (least, s) ← countNumber x (gap x s)
  match least, s with
  | some lo, ',' :: t =>
    match gap x t with
    | '}' :: rest => return (lo, none, rest)
    | t =>
      match ← countNumber x t with
      | (some hi, '}' :: rest) =>
        if lo ≤ hi then return (lo, some hi, rest) else .error .countOrder
      | _ => .error .count
  | some n, '}' :: rest => return (n, some n, rest)
  -- a brace that begins no count is refused and does not stand for itself
  | _, _ => .error .count

theorem length_of_countBounds {x : Bool} {s rest : Text} {lo : Nat} {hi : Option Nat}
    (h : countBounds x s = .ok (lo, hi, rest)) : rest.length ≤ s.length := by
  unfold countBounds at h
  have hgap := length_gap_le x s
  cases hn : countNumber x (gap x s) with
  | error e => rw [hn] at h; cases h
  | ok p =>
    obtain ⟨least, t⟩ := p
    have hlen := length_of_countNumber hn
    rw [hn] at h
    simp only [bind, Except.bind, pure, Except.pure] at h
    split at h
    · next lo' u =>
      have hgap' := length_gap_le x u
      simp only [List.length_cons] at hlen
      split at h
      · next v hv =>
        rw [hv] at hgap'
        simp only [List.length_cons] at hgap'
        cases h; omega
      · next v =>
        cases hm : countNumber x (gap x u) with
        | error e => rw [hm] at h; cases h
        | ok q =>
          have hlen' := length_of_countNumber hm
          rw [hm] at h
          simp only at h
          split at h
          · simp only [List.length_cons] at hlen'
            split at h
            · cases h; omega
            · cases h
          · cases h
    · simp only [List.length_cons] at hlen
      cases h; omega
    · cases h

/-- A question mark makes the repetition before it lazy. -/
def laziness (s : Text) : Bool × Text :=
  match s with
  | '?' :: s => (false, s)
  | s => (true, s)

theorem length_laziness_le (s : Text) : (laziness s).2.length ≤ s.length := by
  unfold laziness
  split
  · exact Nat.le_succ _
  · exact Nat.le_refl _

/-! ## Groups -/

/-- Whether a character may stand in the name of a group, `first` at its beginning. -/
def isNameChar (first : Bool) (c : Char) : Bool :=
  if first then c = '_' || isLetter c
  else c = '_' || c = '.' || c = '[' || c = ']' || isLetter c || isNumber c

def isGroupName : Text → Bool
  | [] => false
  | c :: s => isNameChar true c && s.all (isNameChar false)

/-- The text after an opening parenthesis and the flags that follow `?`. -/
def flagChange? (s : Text) : Except Fault FlagChange := do
  let letters := s.filter (· ≠ '-')
  -- the hyphen counts as well: it stands once, and not at the end
  if ¬ s.Nodup ∨ s.getLast? = some '-' then .error .flagTwice
  else if letters.any fun c => (Flag.ofChar? c).isNone then .error .flagUnknown
  else return {
    on := (s.takeWhile (· ≠ '-')).filterMap Flag.ofChar?
    off := (s.dropWhile (· ≠ '-')).filterMap Flag.ofChar? }

/-- What an opening parenthesis begins. -/
inductive GroupHead where
  /-- A group, which stays open. -/
  | opened (kind : GroupKind)
  /-- A flag item, which is complete. -/
  | flags (change : FlagChange)

/-- The name of a group and the text after its closing angle bracket. -/
def groupName (s : Text) : Except Fault (GroupHead × Text) :=
  match Text.cut? '>' s with
  | none => .error .groupName
  | some (name, rest) =>
    if isGroupName name then .ok (.opened (.named name), rest) else .error .groupName

/-- The flags after `(?` and what they apply to. -/
def groupFlags (s : Text) : Except Fault (GroupHead × Text) := do
  let letters := s.takeWhile fun c => c ≠ ':' && c ≠ ')'
  match s.dropWhile fun c => c ≠ ':' && c ≠ ')' with
  | ':' :: rest => return (.opened (.flagged (← flagChange? letters)), rest)
  | ')' :: rest =>
    -- `(?)` is a question mark with nothing before it to repeat
    if letters.isEmpty then .error .operandMissing
    else return (.flags (← flagChange? letters), rest)
  | _ => .error .flagGroup

/-- What an opening parenthesis begins, from the text after it. -/
def groupHead (x : Bool) (s : Text) : Except Fault (GroupHead × Text) :=
  match gap x s with
  | '?' :: 'P' :: '<' :: s => groupName s
  -- before the short form of a name, which looks the same so far
  | '?' :: '<' :: '=' :: _ | '?' :: '<' :: '!' :: _ | '?' :: '=' :: _ | '?' :: '!' :: _ =>
    .error .lookAround
  | '?' :: '<' :: s => groupName s
  | '?' :: s => groupFlags s
  | s => .ok (.opened .plain, s)

theorem length_of_cut? {c : Char} {s before after : Text}
    (h : Text.cut? c s = some (before, after)) : after.length ≤ s.length := by
  induction s generalizing before with
  | nil => simp [Text.cut?] at h
  | cons d s ih =>
    simp only [Text.cut?] at h
    split at h
    · cases h; exact Nat.le_succ _
    · obtain ⟨⟨b, a⟩, hb, he⟩ := Option.map_eq_some_iff.1 h
      cases he
      exact Nat.le_succ_of_le (ih hb)

theorem length_of_groupName {s rest : Text} {g : GroupHead}
    (h : groupName s = .ok (g, rest)) : rest.length ≤ s.length := by
  unfold groupName at h
  split at h
  · cases h
  · next hc =>
    split at h
    · cases h; exact length_of_cut? hc
    · cases h

theorem length_of_groupFlags {s rest : Text} {g : GroupHead}
    (h : groupFlags s = .ok (g, rest)) : rest.length ≤ s.length := by
  unfold groupFlags at h
  have hd := (List.dropWhile_suffix (fun c => c ≠ ':' && c ≠ ')') (l := s)).length_le
  simp only [bind, Except.bind, pure, Except.pure] at h
  split at h
  · next hs =>
    rw [hs] at hd
    split at h
    · cases h
    · cases h; exact Nat.le_trans (Nat.le_succ _) hd
  · next hs =>
    rw [hs] at hd
    split at h
    · cases h
    · split at h
      · cases h
      · cases h; exact Nat.le_trans (Nat.le_succ _) hd
  · cases h

theorem length_of_groupHead {x : Bool} {s rest : Text} {g : GroupHead}
    (h : groupHead x s = .ok (g, rest)) : rest.length ≤ s.length := by
  have hgap := length_gap_le x s
  unfold groupHead at h
  split at h
  · next hs =>
    rw [hs] at hgap
    have := length_of_groupName h
    simp only [List.length_cons] at hgap
    omega
  · cases h
  · cases h
  · cases h
  · cases h
  · next hs =>
    rw [hs] at hgap
    have := length_of_groupName h
    simp only [List.length_cons] at hgap
    omega
  · next hs =>
    rw [hs] at hgap
    have := length_of_groupFlags h
    simp only [List.length_cons] at hgap
    omega
  · cases h; exact hgap

/-! ## The state of the reader -/

/-- An open group and what stands around it. -/
structure Scope where
  kind : GroupKind
  /-- The parts before the group in its sequence, the last first. -/
  items : List Syntax
  /-- The branches before that sequence, the last first. -/
  branches : List Syntax
  /-- Whether extended mode was on before the group. -/
  extended : Bool

structure State where
  /-- The parts of the current sequence, the last first. -/
  items : List Syntax
  /-- The finished branches beside it, the last first. -/
  branches : List Syntax
  /-- The open groups, the innermost first. -/
  scopes : List Scope
  /-- Whether extended mode is on. -/
  extended : Bool
  /-- The names of the groups so far. -/
  names : List Text

namespace State

def start : State := ⟨[], [], [], false, []⟩

def push (st : State) (item : Syntax) : State :=
  { st with items := item :: st.items }

/-- The choice of all branches, the current sequence being the last one. -/
def body (st : State) : Syntax :=
  .ofBranches (Syntax.ofItems st.items.reverse :: st.branches).reverse

/-- The current sequence is a finished branch. -/
def branch (st : State) : State :=
  { st with items := [], branches := .ofItems st.items.reverse :: st.branches }

def repeatLast (st : State) (lo : Nat) (hi : Option Nat) (greedy : Bool) : Except Fault State :=
  match st.items with
  | item :: items =>
    if item.isRepeatable then .ok { st with items := .times lo hi greedy item :: items }
    else .error .operandMissing
  | [] => .error .operandMissing

/-- Flags change from here on. -/
def changeFlags (st : State) (change : FlagChange) : State :=
  { st with
    items := .flags change :: st.items
    extended := change.apply .extended st.extended }

def openGroup (st : State) (kind : GroupKind) : Except Fault State :=
  let inner : State :=
    { st with
      items := []
      branches := []
      scopes := ⟨kind, st.items, st.branches, st.extended⟩ :: st.scopes }
  match kind with
  | .plain => .ok inner
  | .named name =>
    if name ∈ st.names then .error .groupNameTwice
    else .ok { inner with names := name :: st.names }
  -- in force inside the group: the scope has kept what held before
  | .flagged change => .ok { inner with extended := change.apply .extended st.extended }

def closeGroup (st : State) : Except Fault State :=
  match st.scopes with
  | [] => .error .groupUnopened
  | scope :: scopes =>
    .ok { st with
      items := .group scope.kind st.body :: scope.items
      branches := scope.branches
      scopes := scopes
      -- a switch inside the group ends with it
      extended := scope.extended }

/-- The expression read, when no group is open. -/
def finish (st : State) : Except Fault Syntax :=
  if st.scopes.isEmpty then .ok st.body else .error .groupUnclosed

end State

/-- The expression of an escape outside classes. -/
def Escape.item : Escape → Syntax
  | .char c byte => .char c byte
  | .short kind negated => .short kind negated
  | .property p negated => .property p negated
  | .anchor kind => .anchor kind

/-- Reads one item that begins with `c` and gives the text after it. -/
def step (st : State) (c : Char) (s : Text) : Except Fault (State × Text) :=
  let x := st.extended
  match c with
  | '(' => do
    match ← groupHead x s with
    | (.opened kind, rest) => return (← st.openGroup kind, rest)
    | (.flags change, rest) => return (st.changeFlags change, rest)
  | ')' => do return (← st.closeGroup, s)
  | '|' => .ok (st.branch, s)
  | '[' => do
    let (item, rest) ← charClass x s
    return (st.push item, rest)
  | '?' => do return (← st.repeatLast 0 (some 1) (laziness s).1, (laziness s).2)
  | '*' => do return (← st.repeatLast 0 none (laziness s).1, (laziness s).2)
  | '+' => do return (← st.repeatLast 1 none (laziness s).1, (laziness s).2)
  -- only here may a gap stand before the question mark of laziness
  | '{' => do
    let (lo, hi, rest) ← countBounds x s
    return (← st.repeatLast lo hi (laziness (gap x rest)).1, (laziness (gap x rest)).2)
  | '\\' => do
    let (e, rest) ← escape x s
    return (st.push e.item, rest)
  | '.' => .ok (st.push .dot, s)
  | '^' => .ok (st.push (.anchor .lineStart), s)
  | '$' => .ok (st.push (.anchor .lineEnd), s)
  -- `]` and `\x7d` among them: outside classes and counts they are plain
  | c => .ok (st.push (.char c false), s)

theorem length_of_step {st st' : State} {c : Char} {s rest : Text}
    (h : step st c s = .ok (st', rest)) : rest.length ≤ s.length := by
  unfold step at h
  simp only [bind, Except.bind, pure, Except.pure] at h
  split at h
  · split at h
    · cases h
    · next hg =>
      split at h
      · split at h
        · cases h
        · cases h; exact length_of_groupHead hg
      · cases h; exact length_of_groupHead hg
  · split at h
    · cases h
    · cases h; exact Nat.le_refl _
  · cases h; exact Nat.le_refl _
  · split at h
    · cases h
    · next hc => cases h; exact length_of_charClass hc
  · split at h
    · cases h
    · cases h; exact length_laziness_le s
  · split at h
    · cases h
    · cases h; exact length_laziness_le s
  · split at h
    · cases h
    · cases h; exact length_laziness_le s
  · split at h
    · cases h
    · next hb =>
      split at h
      · cases h
      · cases h
        exact Nat.le_trans (length_laziness_le _)
          (Nat.le_trans (length_gap_le _ _) (length_of_countBounds hb))
  · split at h
    · cases h
    · next he => cases h; exact length_of_escape he
  all_goals cases h; exact Nat.le_refl _

/-- Reads a text on from a state. -/
def run (st : State) (s : Text) : Except Fault State :=
  -- asked of each state anew: the item before may have switched the mode
  match _hs : gap st.extended s with
  | [] => .ok st
  | c :: t =>
    match _ht : step st c t with
    | .error e => .error e
    | .ok (st', rest) => run st' rest
termination_by s.length
decreasing_by
  have hgap := length_gap_le st.extended s
  rw [_hs] at hgap
  exact Nat.lt_of_lt_of_le (Nat.lt_succ_of_le (length_of_step _ht)) hgap

end Reader

/-- The expression that a text writes. -/
def Syntax.read (s : Text) : Except Fault Syntax := do
  let st ← Reader.run .start s
  let e ← st.finish
  -- asked of what was read, so faults of the text are told first
  if e.depth ≤ Syntax.depthLimit then return e else .error .nesting

end Routing.Regex
