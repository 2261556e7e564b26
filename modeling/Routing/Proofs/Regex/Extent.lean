import Mathlib.Data.List.TakeWhile
import Routing.Proofs.Regex.Reading
import Routing.Proofs.Steps

/-!
# How far reading looks

An item of an expression ends before the next one begins, so a text that was read up to its end is
read in the same way when a closing parenthesis comes after it. Only a comment that is still open at
the end takes the parenthesis in.

* `Reader.gap_append`, `Reader.gap_close` — gaps before more text
* `Reader.escape_append`, `Reader.charClass_append`, `Reader.countBounds_append`,
  `Reader.groupHead_append` — the items that span several characters
* `Reader.step_close` — one item before a closing parenthesis
-/

namespace Routing.Regex.Reader

/-- What can follow a requirement in the expression that checks it: the end of its group, a line
feed before that, and the anchor after it. -/
def closers : List Char := [')', '$', '\n']

/-- What holds of all closing characters is checked on the three of them. -/
theorem forall_closers {p : Char → Prop} : (∀ c ∈ closers, p c) ↔ p ')' ∧ p '$' ∧ p '\n' := by
  simp [closers]

/-! ## Gaps -/

/-- A gap that something ends is passed over in the same way before more text. -/
theorem skipGap_append {comment : Bool} {s : Text} (h : skipGap comment s ≠ []) (t : Text) :
    skipGap comment (s ++ t) = skipGap comment s ++ t := by
  induction s generalizing comment with
  | nil => cases comment <;> exact absurd rfl h
  | cons c s ih =>
    cases comment with
    | true => exact ih h
    | false =>
      rw [skipGap] at h
      rw [List.cons_append, skipGap, skipGap]
      -- a blank or a comment is passed over on both sides, anything else ends the gap on both
      split
      · next hc =>
        rw [if_pos hc] at h
        exact ih h
      · next hc =>
        rw [if_neg hc] at h
        split
        · next hhash =>
          rw [if_pos hhash] at h
          exact ih h
        · rfl

/-- What is found behind a gap is found there before more text. -/
theorem gap_append {x : Bool} {s : Text} (h : gap x s ≠ []) (t : Text) :
    gap x (s ++ t) = gap x s ++ t := by
  cases x with
  | false => rfl
  | true => exact skipGap_append h t

theorem gap_append_cons {x : Bool} {c : Char} {s s' : Text} (h : gap x s = c :: s') (t : Text) :
    gap x (s ++ t) = c :: (s' ++ t) := by
  rw [gap_append (by rw [h]; simp), h]
  rfl

theorem gap_nil (x : Bool) : gap x [] = [] := by cases x <;> rfl

/-- A parenthesis is no part of a gap. -/
theorem gap_paren (x : Bool) (u : Text) : gap x (')' :: u) = ')' :: u := by cases x <;> rfl

/-- A comment is open at the end of the text. -/
def Hangs (x : Bool) (s : Text) : Prop := ∀ u, '\n' ∉ u → gap x (s ++ u) = []

/-- Without a line feed a comment goes on to the end of the text. -/
theorem skipGap_comment {u : Text} (hu : '\n' ∉ u) : skipGap true u = [] := by
  induction u with
  | nil => rfl
  | cons c u ih =>
    rw [List.mem_cons, not_or] at hu
    obtain ⟨hc, hu⟩ := hu
    rw [skipGap, decide_eq_true (Ne.symm hc)]
    exact ih hu

/-- A gap up to the end of a text is over at a parenthesis, unless it ends in a comment. -/
theorem skipGap_close {comment : Bool} {s : Text} (h : skipGap comment s = []) :
    (∀ u, skipGap comment (s ++ ')' :: u) = ')' :: u) ∨
      ∀ u, '\n' ∉ u → skipGap comment (s ++ u) = [] := by
  induction s generalizing comment with
  | nil =>
    cases comment with
    | true => exact .inr fun u hu => skipGap_comment hu
    | false => exact .inl fun u => gap_paren true u
  | cons c s ih =>
    cases comment with
    | true => exact ih h
    | false =>
      rw [skipGap] at h
      simp only [List.cons_append, skipGap]
      by_cases hc : isBlank c = true
      · simp only [if_pos hc] at h ⊢
        exact ih h
      · by_cases hhash : c = '#'
        · simp only [if_neg hc, if_pos hhash] at h ⊢
          exact ih h
        · rw [if_neg hc, if_neg hhash] at h
          cases h

/-- A gap up to the end of a text is over where a parenthesis is closed, or it ends in a comment. -/
theorem gap_close {x : Bool} {s : Text} (h : gap x s = []) :
    (∀ u, gap x (s ++ ')' :: u) = ')' :: u) ∨ Hangs x s := by
  cases x with
  | false =>
    rw [show s = [] from h]
    exact .inl fun u => rfl
  | true => exact skipGap_close h

/-- A run that does not reach the end of a text. -/
theorem spaced_append {x : Bool} {p : Char → Bool} {s run rest : Text}
    (h : spaced x p s = (run, rest)) (hrest : rest ≠ []) (t : Text) :
    spaced x p (s ++ t) = (run, rest ++ t) := by
  fun_induction spaced x p s generalizing run with
  | case1 =>
    cases h
    exact absurd rfl hrest
  | case2 c s hc run' rest' hr ih =>
    cases h
    -- the run goes on behind the gap, so the gap does not end the text
    have hgap : gap x s ≠ [] := by
      intro hnil
      rw [hnil, spaced] at hr
      cases hr
      exact hrest rfl
    rw [List.cons_append, spaced, if_pos hc, gap_append hgap, ih hr]
  | case3 c s hc =>
    cases h
    rw [List.cons_append, spaced, if_neg hc]

/-- A run behind a gap that something else ends is the same before more text. -/
theorem spaced_gap_append {x : Bool} {p : Char → Bool} {s run rest : Text} {c : Char}
    (h : spaced x p (gap x s) = (run, c :: rest)) (t : Text) :
    spaced x p (gap x (s ++ t)) = (run, c :: rest ++ t) := by
  -- what ends the run stands behind the gap, so the gap does not reach the end of the text
  have hgap : gap x s ≠ [] := by
    intro hnil
    rw [hnil, spaced] at h
    cases h
  rw [gap_append hgap]
  exact spaced_append h (List.cons_ne_nil c rest) t

/-! ## Escapes -/

/-- Digits that were read are read before more text too, and that text is left over. -/
theorem hexDigits_append {x : Bool} {n : Nat} {s digits rest : Text}
    (h : hexDigits x n s = some (digits, rest)) (t : Text) :
    hexDigits x n (s ++ t) = some (digits, rest ++ t) := by
  induction n generalizing s digits with
  | zero =>
    cases h
    rfl
  | succ n ih =>
    rw [hexDigits] at h
    split at h
    · cases h
    · next c u hu =>
      split at h
      · next hc =>
        obtain ⟨⟨ds, r⟩, hds, he⟩ := Option.map_eq_some_iff.1 h
        cases he
        rw [hexDigits, gap_append_cons hu]
        simp only [hc, if_true, ih hds]
        rfl
      · cases h

/-- A numeric escape is read in the same way before more text. -/
theorem hexEscape_append {x : Bool} {n : Nat} {s rest : Text} {e : Escape}
    (h : hexEscape x (n + 1) s = .ok (e, rest)) (t : Text) :
    hexEscape x (n + 1) (s ++ t) = .ok (e, rest ++ t) := by
  rw [hexEscape] at h
  rw [hexEscape]
  split at h
  · next u hu =>
    rw [gap_append_cons hu]
    split at h
    · next d ds r hsp =>
      simp only [spaced_gap_append hsp t, List.cons_append]
      split at h
      · next hc =>
        cases h
        rfl
      · cases h
    · cases h
  · next hbrace =>
    split at h
    · cases h
    · next ds r hds =>
      -- without braces there is a digit at least behind the gap
      have hgap : gap x s ≠ [] := by
        intro hnil
        rw [hnil, hexDigits, gap_nil] at hds
        cases hds
      rw [gap_append hgap]
      split at h
      · next hc =>
        cases h
        split
        · next heq =>
          obtain ⟨d, v, hv⟩ := List.exists_cons_of_ne_nil hgap
          rw [hv] at heq
          cases heq
          exact absurd hv (hbrace v)
        · rw [hexDigits_append hds]
          simp only [hc]
      · cases h

/-- A property is read in the same way before more text. -/
theorem property_append {x negated : Bool} {s rest : Text} {e : Escape}
    (h : property x negated s = .ok (e, rest)) (t : Text) :
    property x negated (s ++ t) = .ok (e, rest ++ t) := by
  rw [property] at h
  rw [property]
  split at h
  · cases h
  · next u hu =>
    rw [gap_append_cons hu]
    split at h
    · next name r hsp =>
      cases h
      simp only [spaced_gap_append hsp t, List.cons_append]
    · cases h
  · next c r hbrace hc =>
    rw [gap_append_cons hc]
    split
    · next heq => cases heq
    · next heq =>
      cases heq
      exact absurd rfl hbrace
    · next heq =>
      cases heq
      split at h
      · next halpha =>
        cases h
        rw [if_pos halpha]
      · cases h

/-- A boundary is read in the same way before a parenthesis: its brace, if it has one, is closed or
begins a count. -/
theorem boundary_append {x : Bool} {s rest : Text} {e : Escape} (h : boundary x s = .ok (e, rest))
    (u : Text) : boundary x (s ++ ')' :: u) = .ok (e, rest ++ ')' :: u) := by
  unfold boundary at h
  split at h
  · next v =>
    split at h
    · cases h
    · next c w hw =>
      -- a brace with a letter behind it holds the kind of boundary, any other one a count that is
      -- read later
      rw [List.cons_append, boundary]
      simp only [gap_append_cons hw]
      split at h
      · next hc =>
        rw [if_pos hc]
        split at h
        · next name r hsp =>
          split at h
          · next ha =>
            cases h
            have hsp' := spaced_append hsp (by simp) (')' :: u)
            rw [List.cons_append] at hsp'
            simp only [hsp', List.cons_append, ha]
          · cases h
        · cases h
      · next hc =>
        rw [if_neg hc]
        cases h
        rfl
  · next hbrace =>
    cases h
    unfold boundary
    split
    · next v heq =>
      cases s with
      | nil => cases heq
      | cons c s =>
        cases heq
        exact absurd rfl (hbrace s)
    · rfl

/-- An escape is read in the same way before a parenthesis. -/
theorem escape_append {x : Bool} {s rest : Text} {e : Escape} (h : escape x s = .ok (e, rest))
    (u : Text) : escape x (s ++ ')' :: u) = .ok (e, rest ++ ')' :: u) := by
  cases s with
  | nil => cases h
  | cons c s =>
    simp only [List.cons_append, escape] at h ⊢
    split at h
    · cases h
    · next hdigit =>
      rw [if_neg hdigit]
      split at h
      · next hescapable =>
        rw [if_pos hescapable]
        cases h
        rfl
      · next hescapable =>
        rw [if_neg hescapable]
        split at h
        all_goals first
          | exact hexEscape_append h _
          | exact property_append h _
          | exact boundary_append h u
          | (cases h; rfl)
          | cases h

/-! ## Classes -/

/-- What was read of a class in front of its members is read before more text too, if it did not end
the text. -/
theorem classCaret_append {x : Bool} {s : Text} (h : (classCaret x s).2 ≠ []) (t : Text) :
    classCaret x (s ++ t) = ((classCaret x s).1, (classCaret x s).2 ++ t) := by
  have hgap : gap x s ≠ [] := by
    intro hnil
    rw [classCaret, hnil] at h
    exact h rfl
  obtain ⟨c, v, hv⟩ := List.exists_cons_of_ne_nil hgap
  rw [classCaret, hv] at h
  rw [classCaret, classCaret, gap_append_cons hv, hv]
  by_cases hc : c = '^'
  · subst hc
    exact congrArg (true, ·) (gap_append h t)
  · simp [hc]

/-- Hyphens in front of a class that something else ends are the same before more text. -/
theorem leadingHyphens_append {x : Bool} {s : Text} (h : (leadingHyphens x s).2 ≠ []) (t : Text) :
    leadingHyphens x (s ++ t) = ((leadingHyphens x s).1, (leadingHyphens x s).2 ++ t) := by
  have hsp := spaced_append (x := x) (p := (· = '-')) (s := s) rfl h t
  rw [leadingHyphens, hsp]
  rfl

/-- The head of a class is the same before more text, unless it ends the text. -/
theorem classHead_append {x : Bool} {s : Text} (h : (classHead x s).2 ≠ []) (t : Text) :
    classHead x (s ++ t) = ((classHead x s).1, (classHead x s).2 ++ t) := by
  -- what the head left over was left behind the caret and behind the hyphens too
  have hhyphens : (leadingHyphens x (classCaret x s).2).2 ≠ [] := by
    intro hnil
    rw [classHead] at h
    simp only at h
    split at h
    · next heq =>
      rw [heq] at hnil
      cases hnil
    · next heq =>
      rw [heq] at hnil
      exact h hnil
  have hcaret : (classCaret x s).2 ≠ [] := by
    intro hnil
    rw [hnil, leadingHyphens, spaced] at hhyphens
    exact hhyphens rfl
  have happend := leadingHyphens_append hhyphens t
  rw [classHead, classHead, classCaret_append hcaret]
  rw [classHead] at h
  simp only at h ⊢
  rw [happend]
  split at h
  · next v heq =>
    simp only [heq, List.cons_append, gap_append h]
  · next items v hbracket heq =>
    simp only [heq]
    split
    · next w heq' =>
      cases v with
      | nil => exact absurd rfl h
      | cons c v =>
        cases heq'
        exact absurd rfl (hbracket v rfl)
    · next heq' =>
      cases heq'
      rfl

/-- A run that some character ends is the same before more text. -/
theorem takeWhile_append_cons {p : Char → Bool} {s r : Text} {c : Char} (h : s.dropWhile p = c :: r)
    (t : Text) :
    (s ++ t).takeWhile p = s.takeWhile p ∧ (s ++ t).dropWhile p = c :: (r ++ t) := by
  induction s with
  | nil => cases h
  | cons d s ih =>
    rw [List.cons_append, List.takeWhile_cons, List.takeWhile_cons, List.dropWhile_cons]
    rw [List.dropWhile_cons] at h
    split
    · next hd =>
      rw [if_pos hd] at h
      rw [(ih h).1, (ih h).2]
      exact ⟨rfl, rfl⟩
    · next hd =>
      rw [if_neg hd] at h
      cases h
      exact ⟨rfl, rfl⟩

/-- What a named class is from its name on. -/
def namedFrom? (negated : Bool) (s : Text) : Option (ClassSyntax × Text) :=
  match s.dropWhile (· ≠ ':') with
  | ':' :: ']' :: rest =>
    if s.takeWhile (· ≠ ':') ∈ ClassSyntax.names then
      some (.named (s.takeWhile (· ≠ ':')) negated, rest)
    else none
  | _ => none

/-- No name of a class has such a character in it, so that none of them completes a named class. -/
theorem namedFrom?_append (negated : Bool) (s u : Text) {c : Char} (hc : c ∈ closers) :
    namedFrom? negated (s ++ c :: u) =
      (namedFrom? negated s).map fun (item, rest) => (item, rest ++ c :: u) := by
  rw [namedFrom?, namedFrom?]
  -- with no colon in the text, the closing character would have to be part of the name
  cases hs : s.dropWhile (· ≠ ':') with
  | nil =>
    have hall := List.dropWhile_eq_nil_iff.1 hs
    have hcolon : ∀ c ∈ closers, c ≠ ':' := forall_closers.2 (by decide)
    have hnames : ∀ name ∈ ClassSyntax.names, ')' ∉ name ∧ '$' ∉ name ∧ '\n' ∉ name := by decide
    have htake : ((s ++ c :: u).takeWhile (· ≠ ':')) ∉ ClassSyntax.names := by
      intro hmem
      have hfree : ∀ d ∈ closers, d ∉ (s ++ c :: u).takeWhile (· ≠ ':') :=
        forall_closers.2 (hnames _ hmem)
      apply hfree c hc
      rw [List.takeWhile_append_of_pos hall]
      simp [hcolon c hc]
    split
    · rw [if_neg htake]
      rfl
    · rfl
  | cons d r =>
    obtain ⟨htake, hdrop⟩ := takeWhile_append_cons hs (c :: u)
    rw [htake, hdrop]
    -- with a colon in the text, it is closed there by a bracket or not at all
    by_cases hclose : d = ':' ∧ r.head? = some ']'
    · obtain ⟨rfl, hr⟩ := hclose
      obtain ⟨r, rfl⟩ := List.head?_eq_some_iff.1 hr
      simp only [List.cons_append]
      split <;> rfl
    · have hnone (t : Text) (ht : t.head? = some ']' → r.head? = some ']') :
          ∀ rest, d :: t ≠ ':' :: ']' :: rest := by
        rintro rest heq
        cases heq
        exact hclose ⟨rfl, ht rfl⟩
      have hbracket : c ≠ ']' := by
        rintro rfl
        exact absurd hc (by decide)
      split
      · next heq => exact absurd heq (hnone _ (by cases r <;> simp [hbracket]) _)
      · split
        · next heq => exact absurd heq (hnone _ id _)
        · rfl

/-- Without a caret a named class is read from its name on. -/
theorem namedClass?_colon {c : Char} (hc : c ≠ '^') (s : Text) :
    namedClass? (':' :: c :: s) = namedFrom? false (c :: s) := by
  rw [namedClass?]
  · rfl
  · intro s heq
    cases heq
    exact hc rfl

/-- A closing character completes no named class and takes none away. -/
theorem namedClass?_append (s u : Text) {c : Char} (hc : c ∈ closers) :
    namedClass? (s ++ c :: u) =
      (namedClass? s).map fun (item, rest) => (item, rest ++ c :: u) := by
  have hnone {d : Char} (hd : d ≠ ':') (t : Text) : namedClass? (d :: t) = none := by
    rw [namedClass?]
    intro v heq
    cases heq
    exact hd rfl
  have hplain : ∀ c ∈ closers, c ≠ ':' ∧ c ≠ '^' := forall_closers.2 (by decide)
  cases s with
  | nil => exact hnone (hplain c hc).1 u
  | cons d s =>
    by_cases hd : d = ':'
    · subst hd
      cases s with
      | nil =>
        have hcolon : namedClass? (':' :: c :: u) = namedFrom? false ([] ++ c :: u) :=
          namedClass?_colon (hplain c hc).2 u
        exact hcolon.trans (namedFrom?_append false [] u hc)
      | cons d s =>
        by_cases hd : d = '^'
        · subst hd
          exact namedFrom?_append true s u hc
        · rw [namedClass?_colon hd]
          exact (namedClass?_colon hd _).trans (namedFrom?_append false (d :: s) u hc)
    · rw [List.cons_append, hnone hd, hnone hd]
      rfl

/-- A member of a class is read in the same way before a parenthesis. -/
theorem classAtom_append {x : Bool} {s rest : Text} {e : Escape}
    (h : classAtom x s = .ok (e, rest)) (u : Text) :
    classAtom x (s ++ ')' :: u) = .ok (e, rest ++ ')' :: u) := by
  unfold classAtom at h
  split at h
  · cases h
  · exact escape_append h u
  · next hslash =>
    cases h
    rw [List.cons_append, classAtom]
    exact hslash

/-- Blanks in front of a gap are a part of it. -/
theorem skipGap_dropWhile (s : Text) : skipGap false s = skipGap false (s.dropWhile isBlank) := by
  induction s with
  | nil => rfl
  | cons c s ih =>
    by_cases hc : isBlank c = true
    · rw [skipGap, if_pos hc, ih, List.dropWhile_cons_of_pos hc]
    · rw [List.dropWhile_cons_of_neg hc]

/-- Blanks alone are a gap, in a comment or not. -/
theorem skipGap_blank {comment : Bool} {s : Text} (h : ∀ c ∈ s, isBlank c = true) :
    skipGap comment s = [] := by
  induction s generalizing comment with
  | nil => cases comment <;> rfl
  | cons c s ih =>
    obtain ⟨hc, hs⟩ := List.forall_mem_cons.1 h
    cases comment with
    | true => exact ih hs
    | false =>
      rw [skipGap, if_pos hc]
      exact ih hs

/-- What is seen past a gap stands in the text. -/
theorem mem_of_peekPast {x : Bool} {s : Text} {c : Char} (h : peekPast x s = some c) : c ∈ s := by
  have hdrop {s u : Text} (hs : s.dropWhile isBlank = u) : u ⊆ s :=
    hs ▸ (List.dropWhile_suffix isBlank).subset
  -- past blanks, past the hash of a comment and blanks again, or at sight
  unfold peekPast at h
  split at h
  · split at h
    · exact List.mem_of_mem_head? h
    · next t hs =>
      split at h
      · exact List.mem_of_mem_head? h
      · next ht =>
        cases h
        exact hdrop hs (List.mem_cons_of_mem _ (hdrop ht List.mem_cons_self))
    · next hs =>
      cases h
      exact hdrop hs List.mem_cons_self
  · exact List.mem_of_mem_head? h

/-- What follows a hyphen is seen within the text, or there is nothing but a gap in it: blanks, and
perhaps the hash of a comment among them. -/
theorem peekPast_append (x : Bool) (s t : Text) :
    peekPast x (s ++ t) = peekPast x s ∨
      gap x s = [] ∧ ∀ c ∈ s, isBlank c = true ∨ c = '#' := by
  cases x with
  | false =>
    cases s with
    | nil => exact .inr ⟨rfl, by simp⟩
    | cons c s => exact .inl rfl
  | true =>
    have hblank {s : Text} (hs : s.dropWhile isBlank = []) : ∀ c ∈ s, isBlank c = true :=
      List.dropWhile_eq_nil_iff.1 hs
    cases hs : s.dropWhile isBlank with
    | nil => exact .inr ⟨skipGap_blank (hblank hs), fun c hc => .inl (hblank hs c hc)⟩
    | cons c v =>
      obtain ⟨-, hdrop⟩ := takeWhile_append_cons hs t
      by_cases hc : c = '#'
      · subst hc
        cases hv : v.dropWhile isBlank with
        | nil =>
          -- a comment with only blanks in it
          refine .inr ⟨?_, ?_⟩
          · have hcomment : skipGap true v = [] := skipGap_blank (hblank hv)
            show skipGap false s = []
            rw [skipGap_dropWhile, hs]
            exact hcomment
          · intro c hc
            rw [← List.takeWhile_append_dropWhile (p := isBlank) (l := s), hs, List.mem_append,
              List.mem_cons] at hc
            rcases hc with hc | rfl | hc
            · exact .inl (List.mem_takeWhile_imp hc)
            · exact .inr rfl
            · exact .inl (hblank hv c hc)
        | cons d w =>
          obtain ⟨-, hdrop'⟩ := takeWhile_append_cons hv t
          left
          rw [peekPast, peekPast, if_pos rfl, if_pos rfl, hs, hdrop]
          simp only [hv, hdrop']
      · left
        have hpeek (t w : Text) (ht : t.dropWhile isBlank = c :: w) : peekPast true t = some c := by
          rw [peekPast, if_pos rfl, ht]
          split
          · next heq => cases heq
          · next heq =>
            cases heq
            exact absurd rfl hc
          · next heq =>
            cases heq
            rfl
        rw [hpeek _ _ hdrop, hpeek _ _ hs]

/-- A member of a class is a character or a short class, or the range from one character to
another. -/
theorem classItem_eq_ok {x : Bool} {s rest : Text} {item : ClassSyntax} :
    classItem x s = .ok (item, rest) ↔ ∃ first v, classAtom x s = .ok (first, v) ∧
      ((∃ u, gap x v = '-' :: u ∧ (peekPast x u = some ']' ∨ peekPast x u = some '-') ∧
          first.member = .ok item ∧ rest = '-' :: u) ∨
        (∃ u lo hi b b', gap x v = '-' :: u ∧ ¬(peekPast x u = some ']' ∨ peekPast x u = some '-') ∧
          first = .char lo b ∧ classAtom x (gap x u) = .ok (.char hi b', rest) ∧ lo ≤ hi ∧
            item = .range lo hi) ∨
        gap x v ≠ [] ∧ (∀ u, gap x v ≠ '-' :: u) ∧ first.member = .ok item ∧ rest = gap x v) := by
  rw [classItem]
  constructor
  · intro h
    obtain ⟨⟨first, v⟩, hfirst, h⟩ := bind_eq_ok.1 h
    refine ⟨first, v, hfirst, ?_⟩
    simp only at h
    split at h
    · cases h
    · next u hu =>
      split at h
      · next hpeek =>
        obtain ⟨m, hm, h⟩ := bind_eq_ok.1 h
        cases h
        exact .inl ⟨u, hu, hpeek, hm, rfl⟩
      · next hpeek =>
        obtain ⟨⟨last, r⟩, hlast, h⟩ := bind_eq_ok.1 h
        simp only at h
        split at h
        · split at h
          · next hle =>
            cases h
            exact .inr (.inl ⟨u, _, _, _, _, hu, hpeek, rfl, hlast, hle, rfl⟩)
          · cases h
        · cases h
    · next hnil hhyphen =>
      obtain ⟨m, hm, h⟩ := bind_eq_ok.1 h
      cases h
      exact .inr (.inr ⟨hnil, hhyphen, hm, rfl⟩)
  · rintro ⟨first, v, hfirst, h⟩
    refine bind_eq_ok.2 ⟨_, hfirst, ?_⟩
    rcases h with ⟨u, hu, hpeek, hm, rfl⟩ | ⟨u, lo, hi, b, b', hu, hpeek, rfl, hlast, hle, rfl⟩ |
      ⟨hnil, hhyphen, hm, rfl⟩
    · simp only [hu, if_pos hpeek]
      exact bind_eq_ok.2 ⟨_, hm, rfl⟩
    · simp only [hu, if_neg hpeek]
      exact bind_eq_ok.2 ⟨_, hlast, if_pos hle⟩
    · simp only
      exact bind_eq_ok.2 ⟨_, hm, rfl⟩

/-- An item of a class is read in the same way before a parenthesis: no gap up to the end of the
text was looked past for it. -/
theorem classItem_append {x : Bool} {s rest : Text} {item : ClassSyntax}
    (h : classItem x s = .ok (item, rest)) (u : Text) :
    classItem x (s ++ ')' :: u) = .ok (item, rest ++ ')' :: u) := by
  obtain ⟨first, v, hfirst, h⟩ := classItem_eq_ok.1 h
  refine classItem_eq_ok.2 ⟨first, v ++ ')' :: u, classAtom_append hfirst u, ?_⟩
  -- a hyphen that ends the class, a range, or one member
  rcases h with ⟨w, hw, hends, hm, rfl⟩ | ⟨w, lo, hi, b, b', hw, hends, rfl, hlast, hle, rfl⟩ |
    ⟨hnil, hhyphen, hm, rfl⟩
  · left
    have hpeek : peekPast x (w ++ ')' :: u) = peekPast x w := by
      rcases peekPast_append x w (')' :: u) with hpeek | ⟨-, hblank⟩
      · exact hpeek
      · rcases hends with hend | hend
        all_goals exact absurd (hblank _ (mem_of_peekPast hend)) (by decide)
    exact ⟨w ++ ')' :: u, gap_append_cons hw _, hpeek.symm ▸ hends, hm, rfl⟩
  · right; left
    have hgap : gap x w ≠ [] := by
      intro hnil
      rw [hnil] at hlast
      cases hlast
    have hpeek : peekPast x (w ++ ')' :: u) = peekPast x w := by
      rcases peekPast_append x w (')' :: u) with hpeek | ⟨hnil, -⟩
      · exact hpeek
      · exact absurd hnil hgap
    refine ⟨w ++ ')' :: u, lo, hi, b, b', gap_append_cons hw _, hpeek.symm ▸ hends, rfl,
      ?_, hle, rfl⟩
    rw [gap_append hgap]
    exact classAtom_append hlast u
  · right; right
    rw [gap_append hnil]
    refine ⟨by simp, ?_, hm, rfl⟩
    intro w hw
    obtain ⟨c, y, hy⟩ := List.exists_cons_of_ne_nil hnil
    rw [hy] at hw
    cases hw
    exact hhyphen y hy

section ClassRest

variable {x : Bool} {level : ClassLevel} {around : List ClassLevel} {s t v : Text} {c : Char}
  {item : ClassSyntax}

/-- A class goes on behind a named class in it. -/
theorem classRest_named (hs : gap x s = '[' :: t) (hn : namedClass? t = some (item, v)) :
    classRest x level around s = classRest x (level.push item) around v := by
  rw [classRest]
  split <;> grind

/-- A bracket that begins no named class begins a class inside the class. -/
theorem classRest_bracket (hs : gap x s = '[' :: t) (hn : namedClass? t = none) :
    classRest x level around s =
      classRest x (classHead x t).1 (level :: around) (classHead x t).2 := by
  rw [classRest]
  split <;> grind

/-- Elsewhere, and before no operator, the next item of the class is read. -/
theorem classRest_bind (hs : gap x s = c :: t) (hopen : c ≠ '[') (hclose : c ≠ ']')
    (hop : t.head? = some c → c ∉ ['&', '-', '~']) :
    classRest x level around s =
      classItem x (c :: t) >>= fun p => classRest x (level.push p.1) around p.2 := by
  rw [classRest]
  split
  case h_7 =>
    next hs' =>
    cases hs.symm.trans hs'
    split
    · next hi =>
      rw [hi]
      rfl
    · next hi =>
      rw [hi]
      rfl
  all_goals grind

/-- A class goes on behind an item that was read. -/
theorem classRest_item (hs : gap x s = c :: t) (hi : classItem x (c :: t) = .ok (item, v))
    (hopen : c ≠ '[') (hclose : c ≠ ']') (hop : t.head? = some c → c ∉ ['&', '-', '~']) :
    classRest x level around s = classRest x (level.push item) around v := by
  rw [classRest_bind hs hopen hclose hop, hi]
  rfl

end ClassRest

/-- A class that was read to its end is read in the same way before a parenthesis: within it, only
the name of a class could take that in. -/
theorem classRest_append {x : Bool} {level : ClassLevel} {around : List ClassLevel} {s rest : Text}
    {e : Syntax} (h : classRest x level around s = .ok (e, rest)) (u : Text) :
    classRest x level around (s ++ ')' :: u) = .ok (e, rest ++ ')' :: u) := by
  fun_induction classRest x level around s with
  | case1 => cases h
  | case2 level around s t hs item v hn ih =>
    have hn' : namedClass? (t ++ ')' :: u) = some (item, v ++ ')' :: u) := by
      rw [namedClass?_append _ _ (by decide), hn]
      rfl
    rw [classRest_named (gap_append_cons hs _) hn']
    exact ih h
  | case3 level around s t hs hn ih =>
    have hn' : namedClass? (t ++ ')' :: u) = none := by
      rw [namedClass?_append _ _ (by decide), hn]
      rfl
    -- a class inside is closed within the text, so its head does not end there
    have hhead : (classHead x t).2 ≠ [] := by
      intro hnil
      rw [hnil, classRest] at h
      split at h <;> grind [gap_nil]
    rw [classRest_bracket (gap_append_cons hs _) hn', classHead_append hhead]
    exact ih h
  | case4 level s t hs =>
    cases h
    have hs' := gap_append_cons hs (')' :: u)
    rw [classRest]
    split <;> grind
  | case5 level s t hs outer around ih =>
    have hs' := gap_append_cons hs (')' :: u)
    rw [classRest]
    split <;> grind
  | case6 level around s t hs ih | case7 level around s t hs ih | case8 level around s t hs ih =>
    have hs' := gap_append_cons hs (')' :: u)
    rw [classRest]
    split <;> grind
  | case9 => cases h
  | case10 level around s c t hopen hclose hand hhyphen htilde hs item v hi ih =>
    -- an item, and no operator is made of its character by the parenthesis
    rw [classRest_item (gap_append_cons hs _) (classItem_append hi u)]
    · exact ih h
    · exact hopen
    · exact hclose
    · cases t <;> grind

/-- A class is read in the same way before a parenthesis. -/
theorem charClass_append {x : Bool} {s rest : Text} {e : Syntax}
    (h : charClass x s = .ok (e, rest)) (u : Text) :
    charClass x (s ++ ')' :: u) = .ok (e, rest ++ ')' :: u) := by
  have hhead : (classHead x s).2 ≠ [] := by
    intro hnil
    rw [charClass, hnil, classRest] at h
    split at h <;> grind [gap_nil]
  rw [charClass, classHead_append hhead]
  exact classRest_append h u

/-! ## Repetition -/

/-- A number that something ends is read in the same way before more text. -/
theorem countNumber_append {x : Bool} {s rest : Text} {n : Option Nat}
    (h : countNumber x s = .ok (n, rest)) (hrest : rest ≠ []) (t : Text) :
    countNumber x (s ++ t) = .ok (n, rest ++ t) := by
  have hdrop {s : Text} (hs : s.dropWhile isBlank ≠ []) :
      (s ++ t).dropWhile isBlank = s.dropWhile isBlank ++ t := by
    obtain ⟨c, v, hv⟩ := List.exists_cons_of_ne_nil hs
    rw [hv]
    exact (takeWhile_append_cons hv t).2
  -- the digits are ended by what is left over, so they and the blanks around them are the same
  have hspaced {run v : Text} (hsp : spaced x Char.isDigit (s.dropWhile isBlank) = (run, v))
      (hv : v.dropWhile isBlank ≠ []) :
      spaced x Char.isDigit ((s ++ t).dropWhile isBlank) = (run, v ++ t) := by
    have hne : v ≠ [] := by
      rintro rfl
      exact hv rfl
    have hblank : s.dropWhile isBlank ≠ [] := by
      intro hnil
      rw [hnil, spaced] at hsp
      cases hsp
      exact hne rfl
    rw [hdrop hblank]
    exact spaced_append hsp hne t
  unfold countNumber at h
  rw [countNumber]
  split at h
  · next v hsp =>
    cases h
    rw [hspaced hsp hrest]
    simp only [hdrop hrest]
  · next run v hrun hsp =>
    split at h
    · next hle =>
      cases h
      rw [hspaced hsp hrest]
      split
      · next heq =>
        cases heq
        exact absurd rfl hrun
      · next heq =>
        cases heq
        rw [if_pos hle, hdrop hrest]
    · cases h

/-- The bounds of a repetition are closed by a brace, so more text changes nothing. -/
theorem countBounds_append {x : Bool} {s rest : Text} {lo : Nat} {hi : Option Nat}
    (h : countBounds x s = .ok (lo, hi, rest)) (t : Text) :
    countBounds x (s ++ t) = .ok (lo, hi, rest ++ t) := by
  rw [countBounds] at h
  obtain ⟨⟨least, v⟩, hleast, h⟩ := bind_eq_ok.1 h
  -- a comma or a brace follows the first bound
  have hv : v ≠ [] := by
    rintro rfl
    simp at h
  have hgap : gap x s ≠ [] := by
    intro hnil
    rw [hnil, countNumber, List.dropWhile_nil, spaced] at hleast
    cases hleast
    exact hv rfl
  rw [countBounds, gap_append hgap]
  refine bind_eq_ok.2 ⟨_, countNumber_append hleast hv t, ?_⟩
  simp only at h ⊢
  split at h
  · next lo' w =>
    simp only [List.cons_append]
    split at h
    · next r hr =>
      cases h
      rw [gap_append_cons hr]
      rfl
    · next hbrace =>
      obtain ⟨⟨most, r⟩, hmost, h⟩ := bind_eq_ok.1 h
      have hr : r ≠ [] := by
        rintro rfl
        simp at h
      have hgap : gap x w ≠ [] := by
        intro hnil
        rw [hnil, countNumber, List.dropWhile_nil, spaced] at hmost
        cases hmost
        exact hr rfl
      rw [gap_append hgap]
      split
      · next heq =>
        obtain ⟨c, y, hy⟩ := List.exists_cons_of_ne_nil hgap
        rw [hy] at heq
        cases heq
        exact absurd hy (hbrace y)
      · refine bind_eq_ok.2 ⟨_, countNumber_append hmost hr t, ?_⟩
        split at h
        · next heq =>
          cases heq
          split at h
          · next hle =>
            cases h
            exact if_pos hle
          · cases h
        · cases h
  · cases h
    rfl
  · cases h

/-- Only a question mark makes a repetition lazy. -/
theorem laziness_append (s u : Text) {c : Char} (hc : c ≠ '?') :
    laziness (s ++ c :: u) = ((laziness s).1, (laziness s).2 ++ c :: u) := by
  cases s with
  | nil => simp [laziness, hc]
  | cons d s => by_cases hd : d = '?' <;> simp [laziness, hd]

/-! ## Groups -/

/-- A text is cut at the first place, whatever comes later. -/
theorem cut?_append {c : Char} {s before after : Text} (h : Text.cut? c s = some (before, after))
    (t : Text) : Text.cut? c (s ++ t) = some (before, after ++ t) := by
  induction s generalizing before with
  | nil => cases h
  | cons d s ih =>
    rw [Text.cut?] at h
    rw [List.cons_append, Text.cut?]
    split at h
    · next hd =>
      cases h
      rw [if_pos hd]
    · next hd =>
      obtain ⟨⟨b, a⟩, hb, he⟩ := Option.map_eq_some_iff.1 h
      cases he
      rw [if_neg hd, ih hb]
      rfl

/-- The name of a group is read in the same way before more text. -/
theorem groupName_append {s rest : Text} {g : GroupHead} (h : groupName s = .ok (g, rest))
    (t : Text) : groupName (s ++ t) = .ok (g, rest ++ t) := by
  rw [groupName] at h
  split at h
  · cases h
  · next hcut =>
    rw [groupName, cut?_append hcut]
    split at h
    · next hname =>
      cases h
      exact if_pos hname
    · cases h

/-- A list of flags is read in the same way before more text. -/
theorem groupFlags_append {s rest : Text} {g : GroupHead} (h : groupFlags s = .ok (g, rest))
    (t : Text) : groupFlags (s ++ t) = .ok (g, rest ++ t) := by
  rw [groupFlags] at h
  split at h
  · next r hdrop =>
    obtain ⟨change, hchange, h⟩ := bind_eq_ok.1 h
    cases h
    obtain ⟨htake, hdrop'⟩ := takeWhile_append_cons hdrop t
    rw [groupFlags, htake, hdrop']
    exact bind_eq_ok.2 ⟨_, hchange, rfl⟩
  · next r hdrop =>
    split at h
    · cases h
    · next hne =>
      obtain ⟨change, hchange, h⟩ := bind_eq_ok.1 h
      cases h
      obtain ⟨htake, hdrop'⟩ := takeWhile_append_cons hdrop t
      rw [groupFlags, htake, hdrop']
      simp only [if_neg hne]
      exact bind_eq_ok.2 ⟨_, hchange, rfl⟩
  · cases h

section GroupHead

variable {x : Bool} {s v : Text} {c : Char}

/-- Without a question mark a parenthesis opens a group that is numbered only. -/
theorem groupHead_plain (hs : gap x s = c :: v) (hc : c ≠ '?') :
    groupHead x s = .ok (.opened .plain, c :: v) := by
  rw [groupHead, hs]
  split <;> grind

/-- One way to begin a group with a name. -/
theorem groupHead_named (hs : gap x s = '?' :: 'P' :: '<' :: v) :
    groupHead x s = groupName v := by
  rw [groupHead, hs]
  rfl

/-- The other way, which looking behind begins with as well. -/
theorem groupHead_angle (hs : gap x s = '?' :: '<' :: v) (hv : v.head? ∉ [some '=', some '!']) :
    groupHead x s = groupName v := by
  rw [groupHead, hs]
  split <;> grind

/-- Any other question mark begins a list of flags. -/
theorem groupHead_flags (hs : gap x s = '?' :: v) (hv : v.head? ∉ [some '<', some '=', some '!'])
    (hname : v.take 2 ≠ ['P', '<']) : groupHead x s = groupFlags v := by
  rw [groupHead, hs]
  split <;> grind

/-- What a question mark after the parenthesis begins. Groups that look ahead or behind are refused
at sight, with any text after them. -/
theorem groupHead_cases (hs : gap x s = '?' :: v) :
    (∃ w, v = 'P' :: '<' :: w ∧ groupHead x s = groupName w) ∨
      (∃ w, v = '<' :: w ∧ w.head? ∉ [some '=', some '!'] ∧ groupHead x s = groupName w) ∨
      (∀ t, groupHead x (s ++ t) = .error .lookAround) ∨
      v.head? ∉ [some '<', some '=', some '!'] ∧ v.take 2 ≠ ['P', '<'] ∧
        groupHead x s = groupFlags v := by
  have hahead (hlook : v.head? ∈ [some '=', some '!']) (t : Text) :
      groupHead x (s ++ t) = .error .lookAround := by
    rw [groupHead, gap_append_cons hs]
    rcases (by simpa using hlook : v.head? = some '=' ∨ v.head? = some '!') with hv | hv
    all_goals
      obtain ⟨w, rfl⟩ := List.head?_eq_some_iff.1 hv
      rfl
  -- by what follows the question mark
  by_cases hname : v.take 2 = ['P', '<']
  · obtain ⟨w, rfl⟩ : ∃ w, v = 'P' :: '<' :: w :=
      ⟨v.drop 2, by rw [← List.take_append_drop 2 v, hname]; rfl⟩
    exact .inl ⟨w, rfl, groupHead_named hs⟩
  · by_cases hangle : v.head? = some '<'
    · obtain ⟨w, rfl⟩ := List.head?_eq_some_iff.1 hangle
      by_cases hlook : w.head? ∈ [some '=', some '!']
      · right; right; left
        intro t
        rw [groupHead, gap_append_cons hs]
        rcases (by simpa using hlook : w.head? = some '=' ∨ w.head? = some '!') with hw | hw
        all_goals
          obtain ⟨w, rfl⟩ := List.head?_eq_some_iff.1 hw
          rfl
      · exact .inr (.inl ⟨w, rfl, hlook, groupHead_angle hs hlook⟩)
    · by_cases hlook : v.head? ∈ [some '=', some '!']
      · exact .inr (.inr (.inl (hahead hlook)))
      · have hfirst : v.head? ∉ [some '<', some '=', some '!'] := by grind
        exact .inr (.inr (.inr ⟨hfirst, hname, groupHead_flags hs hfirst hname⟩))

end GroupHead

/-- The head of a group before a parenthesis: a group may begin right before it, unless a comment
takes it in. -/
theorem groupHead_append {x : Bool} {s rest : Text} {g : GroupHead}
    (h : groupHead x s = .ok (g, rest)) :
    (∀ u, groupHead x (s ++ ')' :: u) = .ok (g, rest ++ ')' :: u)) ∨
      rest = [] ∧ ∀ u, '\n' ∉ u → groupHead x (s ++ u) = .ok (g, []) := by
  by_cases hgap : gap x s = []
  · have hplain : g = .opened .plain ∧ rest = [] := by
      rw [groupHead, hgap] at h
      cases h
      exact ⟨rfl, rfl⟩
    obtain ⟨rfl, rfl⟩ := hplain
    rcases gap_close hgap with hclose | hhang
    · left
      intro u
      rw [groupHead, hclose]
      rfl
    · right
      refine ⟨rfl, fun u hu => ?_⟩
      rw [groupHead, hhang u hu]
  · left
    intro u
    obtain ⟨c, v, hv⟩ := List.exists_cons_of_ne_nil hgap
    have hv' := gap_append_cons hv (')' :: u)
    by_cases hc : c = '?'
    · subst hc
      rcases groupHead_cases hv with ⟨w, rfl, hhead⟩ | ⟨w, rfl, hlook, hhead⟩ | hhead |
        ⟨hfirst, hname, hhead⟩
      · rw [hhead] at h
        rw [groupHead_named hv']
        exact groupName_append h _
      · rw [hhead] at h
        rw [groupHead_angle hv']
        · exact groupName_append h _
        · cases w with
          | nil => simp
          | cons d w => exact hlook
      · rw [← List.append_nil s, hhead] at h
        cases h
      · rw [hhead] at h
        rw [groupHead_flags hv']
        · exact groupFlags_append h _
        · cases v with
          | nil => simp
          | cons d v => exact hfirst
        · rcases v with _ | ⟨d, _ | ⟨e, v⟩⟩
          · simp
          · simp
          · exact hname
    · rw [groupHead_plain hv hc] at h
      cases h
      exact groupHead_plain hv' hc

end Routing.Regex.Reader
