import Routing.Proofs.Regex.Language

/-!
# Matches in a smaller text

What stands around a match matters only to the places at its two ends. When the text there is cut
away, the ends of the text take its place, and every condition on a place still holds, but for those
that compare the characters on both sides as parts of words. These hold too when the characters cut
away are no parts of words.

* `Expr.seesWords` — an expression compares two characters as parts of words
* `Expr.matches_shrink` — a match is still one when the text around it is cut away
-/

namespace Routing.Regex

/-! ## Places -/

namespace Look

/-- Whether the condition compares the characters on both sides as parts of words. -/
def seesWords : Look → Bool
  | boundary _ | notBoundary _ | wordStart _ | wordStop _ => true
  | start | stop | lineStart | lineStop | lineStartCrlf | lineStopCrlf | wordStartHalf _
  | wordStopHalf _ => false

/-- The character is no part of words, of any script. -/
def Apart (c : Option Char) : Prop := ∀ wide, inWord wide c = false

/-- At an end of the text no word goes on. -/
theorem apart_none : Apart none := fun _ => rfl

/-- A condition on a place holds where a neighbour is cut away. -/
theorem holds_shrink {k : Look} {before after before' after' : Option Char}
    (h : k.holds before after = true) (hb : before' = before ∨ before' = none)
    (ha : after' = after ∨ after' = none)
    (hwords : k.seesWords = false ∨
      (before' = before ∨ Apart before) ∧ (after' = after ∨ Apart after)) :
    k.holds before' after' = true := by
  have hnone (wide : Bool) : inWord wide none = false := rfl
  cases k <;> simp only [holds, seesWords] at h hwords ⊢ <;> grind [Apart]

end Look

/-! ## Languages -/

namespace Lang

/-- A match between `a` and `b` is one without them. -/
def Shrinks (a b : Text) (M : Lang) : Prop :=
  ∀ l t r g, M (a ++ l) t (r ++ b) g → M l t r g

variable {a b : Text} {M N : Lang}

theorem shrinks_nil : Shrinks a b nil := fun _ _ _ _ h => h

/-- Each of two matches has the other one between it and the text that is cut away. -/
theorem Shrinks.seq (hM : M.Shrinks a b) (hN : N.Shrinks a b) : (M.seq N).Shrinks a b := by
  intro l t r g h
  obtain ⟨t₁, t₂, g₁, g₂, ht, hg, h₁, h₂⟩ := h
  -- the second match stands after the first, the first before the second
  rw [← List.append_assoc] at h₁
  rw [List.append_assoc] at h₂
  exact ⟨t₁, t₂, g₁, g₂, ht, hg, hM _ _ _ _ h₁, hN _ _ _ _ h₂⟩

theorem Shrinks.copies (hM : M.Shrinks a b) (n : Nat) : (M.copies n).Shrinks a b := by
  induction n with
  | zero => exact shrinks_nil
  | succ n ih => exact hM.seq ih

end Lang

/-! ## Expressions -/

namespace Expr

/-- Whether the expression compares two characters as parts of words. -/
def seesWords : Expr → Bool
  | empty | set _ => false
  | look k => k.seesWords
  | seq a b | alt a b => a.seesWords || b.seesWords
  | times _ _ _ e | group _ e => e.seesWords

/-- A match is still one when the text around it is cut away. -/
theorem matches_shrink {e : Expr} {a b : Text}
    (h : e.seesWords = false ∨ Look.Apart a.getLast? ∧ Look.Apart b.head?) :
    e.Matches.Shrinks a b := by
  induction e with
  | empty => exact Lang.shrinks_nil
  | set s => exact fun _ _ _ _ hM => hM
  -- only a place looks at the text around it
  | look k =>
    intro l t r g hM
    obtain ⟨ht, hg, hk⟩ := hM
    -- a neighbour within the smaller text is the same, and otherwise its text ends there
    have hbefore : l.getLast? = (a ++ l).getLast? ∨
        l.getLast? = none ∧ (a ++ l).getLast? = a.getLast? := by
      cases l with
      | nil => exact .inr ⟨rfl, by rw [List.append_nil]⟩
      | cons c l => exact .inl (by grind)
    have hafter : r.head? = (r ++ b).head? ∨ r.head? = none ∧ (r ++ b).head? = b.head? := by
      cases r with
      | nil => exact .inr ⟨rfl, rfl⟩
      | cons c r => exact .inl rfl
    exact ⟨ht, hg, Look.holds_shrink hk (by grind) (by grind) (by grind [seesWords])⟩
  | seq e f ihe ihf =>
    rw [seesWords, Bool.or_eq_false_iff] at h
    exact (ihe (h.imp_left And.left)).seq (ihf (h.imp_left And.right))
  | alt e f ihe ihf =>
    rw [seesWords, Bool.or_eq_false_iff] at h
    intro l t r g hM
    exact hM.imp (ihe (h.imp_left And.left) l t r g) (ihf (h.imp_left And.right) l t r g)
  | times lo hi greedy e ih =>
    intro l t r g hM
    obtain ⟨n, hlo, hhi, hM⟩ := hM
    exact ⟨n, hlo, hhi, (ih h).copies n l t r g hM⟩
  | group name e ih =>
    cases name with
    | none => exact ih h
    | some name =>
      intro l t r g hM
      obtain ⟨g', hM, hg⟩ := hM
      exact ⟨g', ih h l t r g' hM, hg⟩

/-- Taking a sequence apart does not change what it looks at. -/
theorem seesWords_parts (e : Expr) : e.parts.any seesWords = e.seesWords := by
  induction e with
  | empty => rfl
  | seq e f ihe ihf => rw [parts, List.any_append, ihe, ihf]; rfl
  | set | look | alt | times | group => exact Bool.or_false _

/-- A sequence sees words when one of its parts does. -/
theorem seesWords_ofParts (es : List Expr) : (ofParts es).seesWords = es.any seesWords := by
  induction es with
  | nil => rfl
  | cons e es ih =>
    cases es with
    | nil => exact (Bool.or_false _).symm
    | cons f fs =>
      rw [List.any_cons, ← ih]
      rfl

/-- A sequence compares characters where one of its parts does. -/
theorem seesWords_concat (es : List Expr) : (concat es).seesWords = es.any seesWords := by
  rw [concat, seesWords_ofParts, List.any_flatMap]
  congr 1
  funext e
  exact seesWords_parts e

end Expr

end Routing.Regex
