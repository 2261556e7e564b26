import Routing.Proofs.Regex.Closed

/-!
# What an item takes from the text after it

An expression is checked inside a larger text: a line feed, the end of a group and an anchor come
after it. What is read there must not differ from what is read without them. An item that was read
with such characters after it ends before them, but for a few: a gap goes on into them, a backslash
at the end escapes the first of them, and a list of flags at the end is closed by a parenthesis
among them.

* `Closing` — a text of such characters
* `gap_append_cases`, `spaced_append_cases` — gaps and runs, within the text or beyond it
* `escape_restrict`, `charClass_restrict`, `countBounds_restrict`, `groupHead_restrict` — the items
  that span several characters
* `Seam`, `action_restrict` — one item
-/

namespace Routing.Regex.Reader

/-- A text of characters that end what stands before them. -/
def Closing (t : Text) : Prop := ∀ c ∈ t, c ∈ closers

namespace Closing

variable {t w : Text} {c : Char}

theorem of_suffix (h : Closing t) (hw : w <:+ t) : Closing w := fun c hc => h c (hw.subset hc)

/-- Characters that close nothing do not stand in a closing text. -/
theorem not_mem (h : Closing t) (hc : c ∉ closers) : c ∉ t := fun hmem => hc (h c hmem)

/-- A closing text does not begin with any of them. -/
theorem ne_cons (h : Closing t) (hc : c ∉ closers) (u : Text) : t ≠ c :: u := by
  rintro rfl
  exact h.not_mem hc List.mem_cons_self

end Closing

/-! ## Gaps -/

/-- A gap is taken from the front. -/
theorem skipGap_suffix (comment : Bool) (s : Text) : skipGap comment s <:+ s := by
  induction s generalizing comment with
  | nil => cases comment <;> exact List.suffix_rfl
  | cons c s ih =>
    cases comment with
    | true => exact (ih _).trans (List.suffix_cons c s)
    | false =>
      rw [skipGap]
      split
      · exact (ih _).trans (List.suffix_cons c s)
      · split
        · exact (ih _).trans (List.suffix_cons c s)
        · exact List.suffix_rfl

/-- What is behind a gap is the end of the text. -/
theorem gap_suffix (x : Bool) (s : Text) : gap x s <:+ s := by
  cases x with
  | false => exact List.suffix_rfl
  | true => exact skipGap_suffix false s

/-- Behind a gap in a closing text there is no character that closes nothing. -/
theorem Closing.gap_ne_cons {t : Text} {c : Char} (h : Closing t) (hc : c ∉ closers) (x : Bool)
    (u : Text) : gap x t ≠ c :: u :=
  (h.of_suffix (gap_suffix x t)).ne_cons hc u

/-- A gap that takes in all of a text leaves nothing of it when more text follows. -/
theorem skipGap_late {comment : Bool} {s : Text} (h : skipGap comment s = []) (t : Text) :
    skipGap comment (s ++ t) <:+ t := by
  induction s generalizing comment with
  | nil => exact skipGap_suffix comment t
  | cons c s ih =>
    cases comment with
    | true => exact ih h
    | false =>
      -- only blanks and comments can be passed over on the way to the end of the text
      rw [skipGap] at h
      rw [List.cons_append, skipGap]
      split at h
      · next hc =>
        rw [if_pos hc]
        exact ih h
      · next hc =>
        split at h
        · next hhash =>
          rw [if_neg hc, if_pos hhash]
          exact ih h
        · cases h

/-- A gap that ends a text goes on into what follows, and a gap that does not stays as it is. -/
theorem gap_append_cases (x : Bool) (s t : Text) :
    gap x s = [] ∧ gap x (s ++ t) <:+ t ∨
      ∃ c v, gap x s = c :: v ∧ gap x (s ++ t) = c :: (v ++ t) := by
  -- a gap that takes in all of the text goes on into what follows
  cases hs : gap x s with
  | nil =>
    refine .inl ⟨rfl, ?_⟩
    cases x with
    | false =>
      rw [show s = [] from hs]
      exact List.suffix_rfl
    | true => exact skipGap_late hs t
  | cons c v => exact .inr ⟨c, v, rfl, gap_append_cons hs t⟩

/-- A character that the text after it lacks was found in the text itself. -/
theorem gap_restrict {x : Bool} {s t rest : Text} {c : Char} (h : gap x (s ++ t) = c :: rest)
    (hc : c ∉ t) : ∃ r, gap x s = c :: r ∧ rest = r ++ t := by
  rcases gap_append_cases x s t with ⟨-, hlate⟩ | ⟨d, v, hs, happend⟩
  · rw [h] at hlate
    exact absurd (hlate.subset List.mem_cons_self) hc
  · cases happend.symm.trans h
    exact ⟨v, hs, rfl⟩

/-- A run is taken from the front. -/
theorem spaced_suffix (x : Bool) (p : Char → Bool) (s : Text) : (spaced x p s).2 <:+ s := by
  fun_induction spaced x p s with
  | case1 => exact List.suffix_rfl
  | case2 c s hc run rest hr ih =>
    rw [hr] at ih
    exact (ih.trans (gap_suffix x s)).trans (List.suffix_cons c s)
  | case3 => exact List.suffix_rfl

/-- A run that takes in all of a text leaves nothing of it when more text follows. -/
theorem spaced_late {x : Bool} {p : Char → Bool} {s : Text} (h : (spaced x p s).2 = []) (t : Text) :
    (spaced x p (s ++ t)).2 <:+ t := by
  fun_induction spaced x p s with
  | case1 => exact spaced_suffix x p t
  | case2 c s hc run rest hr ih =>
    rw [List.cons_append, spaced, if_pos hc]
    rcases gap_append_cases x s t with ⟨-, hlate⟩ | ⟨d, v, hs, hlate⟩
    · exact (spaced_suffix x p _).trans hlate
    · rw [hr] at ih
      rw [hs] at ih
      rw [hlate]
      exact ih h
  | case3 => cases h

/-- A run goes on into what follows when it takes in all of the text, and stays as it is otherwise.
-/
theorem spaced_append_cases (x : Bool) (p : Char → Bool) (s t : Text) :
    (spaced x p s).2 = [] ∧ (spaced x p (s ++ t)).2 <:+ t ∨
      (spaced x p s).2 ≠ [] ∧
        spaced x p (s ++ t) = ((spaced x p s).1, (spaced x p s).2 ++ t) := by
  by_cases hs : (spaced x p s).2 = []
  · exact .inl ⟨hs, spaced_late hs t⟩
  · exact .inr ⟨hs, spaced_append rfl hs t⟩

/-- A run that something else ends, ends before text without it. -/
theorem spaced_restrict {x : Bool} {p : Char → Bool} {s t run rest : Text} {c : Char}
    (h : spaced x p (s ++ t) = (run, c :: rest)) (hc : c ∉ t) :
    ∃ r, spaced x p s = (run, c :: r) ∧ rest = r ++ t := by
  rcases spaced_append_cases x p s t with ⟨-, hlate⟩ | ⟨hne, happend⟩
  · rw [h] at hlate
    exact absurd (hlate.subset List.mem_cons_self) hc
  · obtain ⟨d, r, hr⟩ := List.exists_cons_of_ne_nil hne
    rw [hr] at happend
    cases happend.symm.trans h
    exact ⟨r, Prod.ext rfl hr, rfl⟩

/-- A run behind a gap that something else ends, ends before text without it. -/
theorem spaced_gap_restrict {x : Bool} {p : Char → Bool} {s t run rest : Text} {c : Char}
    (h : spaced x p (gap x (s ++ t)) = (run, c :: rest)) (hc : c ∉ t) :
    ∃ r, spaced x p (gap x s) = (run, c :: r) ∧ rest = r ++ t := by
  -- a gap up to the end of the text would leave the character in what follows
  rcases gap_append_cases x s t with ⟨-, hlate⟩ | ⟨d, v, hs, hlate⟩
  · have hsuffix := (spaced_suffix x p (gap x (s ++ t))).trans hlate
    rw [h] at hsuffix
    exact absurd (hsuffix.subset List.mem_cons_self) hc
  · rw [hlate] at h
    rw [hs]
    exact spaced_restrict h hc

/-! ## Escapes -/

section Items

variable {x : Bool} {s t rest : Text}

/-- No closing character is a digit, so the digits stand in the text. -/
theorem hexDigits_restrict {n : Nat} {digits : Text}
    (ht : Closing t) (h : hexDigits x n (s ++ t) = some (digits, rest)) :
    ∃ r, hexDigits x n s = some (digits, r) ∧ rest = r ++ t := by
  induction n generalizing s digits with
  | zero =>
    cases h
    exact ⟨s, rfl, rfl⟩
  | succ n ih =>
    rw [hexDigits] at h
    rw [hexDigits]
    rcases gap_append_cases x s t with ⟨-, hlate⟩ | ⟨c, v, hs, hlate⟩
    -- past the end of the text there would have to be a digit among the closing characters
    · have hdigit : ∀ c ∈ closers, (Numeral.hexValue? c).isSome = false :=
        forall_closers.2 (by decide)
      split at h
      · cases h
      · next c u hu =>
        rw [hu] at hlate
        rw [hdigit c (ht c (hlate.subset List.mem_cons_self))] at h
        cases h
    · rw [hlate] at h
      rw [hs]
      simp only at h ⊢
      split at h
      · next hc =>
        obtain ⟨⟨ds, r⟩, hds, he⟩ := Option.map_eq_some_iff.1 h
        cases he
        obtain ⟨r', hr', rfl⟩ := ih hds
        refine ⟨r', ?_, rfl⟩
        rw [if_pos hc, hr']
        rfl
      · cases h

/-- A numeric escape is never completed by closing characters. -/
theorem hexEscape_restrict {n : Nat} {e : Escape}
    (ht : Closing t) (h : hexEscape x (n + 1) (s ++ t) = .ok (e, rest)) :
    ∃ r, hexEscape x (n + 1) s = .ok (e, r) ∧ rest = r ++ t := by
  rw [hexEscape] at h
  rw [hexEscape]
  split at h
  · next u hu =>
    rcases gap_append_cases x s t with ⟨-, hlate⟩ | ⟨c, v, hs, hlate⟩
    · exact absurd hu ((ht.of_suffix hlate).ne_cons (by decide) u)
    · cases hlate.symm.trans hu
      rw [hs]
      split at h
      · next d ds r hsp =>
        obtain ⟨r', hr', rfl⟩ := spaced_gap_restrict hsp (ht.not_mem (by decide))
        simp only [hr']
        split at h
        · next hc =>
          cases h
          exact ⟨r', rfl, rfl⟩
        · cases h
      · cases h
  · next hbrace =>
    split at h
    · cases h
    · next digits r hdigits =>
      -- the text after a gap is not empty, as no closing character is a digit
      have hplain : ∀ u, gap x s ≠ '\x7b' :: u := fun u hu => hbrace _ (gap_append_cons hu t)
      have hdigits' : ∃ r', hexDigits x (n + 1) (gap x s) = some (digits, r') ∧ r = r' ++ t := by
        rcases gap_append_cases x s t with ⟨-, hlate⟩ | ⟨c, v, hs, hlate⟩
        · obtain ⟨r', hr', -⟩ := hexDigits_restrict (ht.of_suffix hlate) (s := []) hdigits
          rw [hexDigits, gap_nil] at hr'
          cases hr'
        · rw [hlate] at hdigits
          rw [hs]
          exact hexDigits_restrict ht (s := c :: v) hdigits
      obtain ⟨r', hr', rfl⟩ := hdigits'
      split at h
      · next hc =>
        cases h
        refine ⟨r', ?_, rfl⟩
        split
        · next u hu => exact absurd hu (hplain u)
        · simp only [hr', hc]
      · cases h

/-- A property is never completed by closing characters: none of them is a letter or a brace. -/
theorem property_restrict {negated : Bool} {e : Escape} (ht : Closing t)
    (h : property x negated (s ++ t) = .ok (e, rest)) :
    ∃ r, property x negated s = .ok (e, r) ∧ rest = r ++ t := by
  rw [property] at h
  rw [property]
  rcases gap_append_cases x s t with ⟨-, hlate⟩ | ⟨c, v, hs, hlate⟩
  -- past the end of the text there would have to be a letter or a brace among them
  · have hletter : ∀ c ∈ closers, ¬c.isAlpha = true := forall_closers.2 (by decide)
    split at h
    · cases h
    · next u hu => exact absurd hu ((ht.of_suffix hlate).ne_cons (by decide) u)
    · next c u _ hu =>
      rw [hu] at hlate
      rw [if_neg (hletter c (ht c (hlate.subset List.mem_cons_self)))] at h
      cases h
  · rw [hlate] at h
    rw [hs]
    by_cases hc : c = '\x7b'
    · subst hc
      simp only at h ⊢
      split at h
      · next name r hsp =>
        cases h
        obtain ⟨r', hr', rfl⟩ := spaced_gap_restrict hsp (ht.not_mem (by decide))
        refine ⟨r', ?_, rfl⟩
        simp only [hr']
      · cases h
    · split at h
      · next heq => cases heq
      · next heq =>
        cases heq
        exact absurd rfl hc
      · next heq =>
        cases heq
        split at h
        · next halpha =>
          cases h
          exact ⟨v, by simp [halpha], rfl⟩
        · cases h

/-- A boundary whose brace ends the text leaves it for a count. -/
theorem boundary_restrict {e : Escape} (ht : Closing t) (h : boundary x (s ++ t) = .ok (e, rest)) :
    (∃ r, boundary x s = .ok (e, r) ∧ rest = r ++ t) ∨
      ∃ v, s = '\x7b' :: v ∧ gap x v = [] ∧ e = .anchor .boundary ∧
        rest = '\x7b' :: (v ++ t) := by
  cases s with
  | nil =>
    refine .inl ⟨[], ?_⟩
    rw [List.nil_append, boundary] at h
    · cases h
      exact ⟨rfl, rfl⟩
    · exact ht.ne_cons (by decide)
  | cons c v =>
    by_cases hc : c = '\x7b'
    · subst hc
      rw [List.cons_append, boundary] at h
      rcases gap_append_cases x v t with ⟨hv, hlate⟩ | ⟨d, u, hv, hlate⟩
      · right
        refine ⟨v, rfl, hv, ?_⟩
        split at h
        · cases h
        · next d u hu =>
          rw [hu] at hlate
          -- past the gap there would have to be a letter of the name among the closing characters
          have hname : ∀ c ∈ closers, ¬(c.isAlpha || c = '-') = true :=
            forall_closers.2 (by decide)
          rw [if_neg (hname d (ht d (hlate.subset List.mem_cons_self)))] at h
          cases h
          exact ⟨rfl, rfl⟩
      · left
        rw [hlate] at h
        rw [boundary, hv]
        simp only at h ⊢
        split at h
        · next hd =>
          rw [if_pos hd]
          split at h
          · next name r hsp =>
            obtain ⟨r', hr', rfl⟩ := spaced_restrict (s := d :: u) hsp (ht.not_mem (by decide))
            simp only [hr']
            split at h
            · cases h
              exact ⟨r', rfl, rfl⟩
            · cases h
          · cases h
        · next hd =>
          rw [if_neg hd]
          cases h
          exact ⟨_, rfl, rfl⟩
    · left
      rw [List.cons_append, boundary] at h
      · cases h
        refine ⟨c :: v, ?_, rfl⟩
        rw [boundary]
        rintro u heq
        cases heq
        exact hc rfl
      · rintro u heq
        cases heq
        exact hc rfl

/-- A backslash that ends the text escapes the first character of what follows. -/
theorem escape_restrict {e : Escape} (ht : Closing t) (h : escape x (s ++ t) = .ok (e, rest)) :
    (∃ r, escape x s = .ok (e, r) ∧ rest = r ++ t) ∨ s = [] ∧ rest = t.tail ∨
      ∃ v, s = 'b' :: '\x7b' :: v ∧ gap x v = [] ∧ e = .anchor .boundary ∧
        rest = '\x7b' :: (v ++ t) := by
  cases s with
  | nil =>
    refine .inr (.inl ⟨rfl, ?_⟩)
    cases t with
    | nil => cases h
    | cons c u =>
      -- nothing is left of the text behind the backslash, and every closing character can be
      -- escaped
      have hplain : ∀ c ∈ closers, ¬c.isDigit = true ∧ isEscapable c = true :=
        forall_closers.2 (by decide)
      obtain ⟨hdigit, hescapable⟩ := hplain c (ht c List.mem_cons_self)
      simp only [List.nil_append, escape, if_neg hdigit, if_pos hescapable] at h
      cases h
      rfl
  | cons c s =>
    simp only [List.cons_append, escape] at h ⊢
    split at h
    · cases h
    · next hdigit =>
      simp only [if_neg hdigit]
      split at h
      · next hescapable =>
        cases h
        exact .inl ⟨s, if_pos hescapable, rfl⟩
      · next hescapable =>
        simp only [if_neg hescapable]
        split at h
        all_goals first
          | exact .inl (hexEscape_restrict ht h)
          | exact .inl (property_restrict ht h)
          | (rcases boundary_restrict ht h with hread | ⟨v, rfl, hseam⟩
             · exact .inl hread
             · exact .inr (.inr ⟨v, rfl, hseam⟩))
          | (cases h; exact .inl ⟨s, rfl, rfl⟩)
          | cases h

/-! ## Classes -/

/-- What follows a text can be reached by the head of a class only when that takes in all of the
text. -/
theorem classCaret_late (h : (classCaret x s).2 = []) : (classCaret x (s ++ t)).2 <:+ t := by
  rw [classCaret] at h
  rw [classCaret]
  rcases gap_append_cases x s t with ⟨-, hlate⟩ | ⟨c, v, hs, hlate⟩
  · split
    · next u hu =>
      rw [hu] at hlate
      exact (gap_suffix x u).trans ((List.suffix_cons _ u).trans hlate)
    · exact hlate
  · rw [hs] at h
    rw [hlate]
    split at h
    · next u hu =>
      cases hu
      rcases gap_append_cases x v t with ⟨-, hlate⟩ | ⟨d, w, hv, -⟩
      · exact hlate
      · cases hv.symm.trans h
    · cases h

/-- What is left after the head of a class is left after its hyphens. -/
theorem classHead_suffix : (classHead x s).2 <:+ (leadingHyphens x (classCaret x s).2).2 := by
  rw [classHead]
  simp only
  split
  · next u hu =>
    rw [hu]
    exact (gap_suffix x u).trans (List.suffix_cons _ u)
  · next items v _ hu =>
    have hv : (leadingHyphens x (classCaret x s).2).2 = v := congrArg Prod.snd hu
    exact hv.symm ▸ List.suffix_rfl

/-- The same of the head with its hyphens and its bracket. -/
theorem classHead_late (h : (classHead x s).2 = []) : (classHead x (s ++ t)).2 <:+ t := by
  by_cases hcaret : (classCaret x s).2 = []
  · exact (classHead_suffix.trans (spaced_suffix ..)).trans (classCaret_late hcaret)
  · by_cases hhyphens : (leadingHyphens x (classCaret x s).2).2 = []
    · refine classHead_suffix.trans ?_
      rw [classCaret_append hcaret]
      exact spaced_late hhyphens t
    · -- only the bracket that stands for itself was left
      rw [classHead] at h
      rw [classHead, classCaret_append hcaret]
      simp only at h ⊢
      rw [leadingHyphens_append hhyphens]
      split at h
      · next u hu =>
        rw [hu]
        rcases gap_append_cases x u t with ⟨-, hlate⟩ | ⟨c, v, hv, -⟩
        · exact hlate
        · cases hv.symm.trans h
      · next hu =>
        rw [hu] at hhyphens
        exact absurd h hhyphens

/-- A member of a class stands in the text or begins in what follows; a boundary, which is none, may
be cut short. -/
theorem classAtom_restrict {e : Escape}
    (ht : Closing t) (h : classAtom x (s ++ t) = .ok (e, rest)) :
    (∃ r, classAtom x s = .ok (e, r) ∧ rest = r ++ t) ∨ rest <:+ t ∨ ∃ kind, e = .anchor kind := by
  cases s with
  | nil =>
    right; left
    cases t with
    | nil => cases h
    | cons c u =>
      rw [List.nil_append, classAtom] at h
      · cases h
        exact List.suffix_cons c _
      · rintro rfl
        exact absurd (ht '\\' List.mem_cons_self) (by decide)
  | cons c s =>
    by_cases hc : c = '\\'
    · subst hc
      rcases escape_restrict ht (s := s) h with hread | ⟨-, rfl⟩ | ⟨v, -, -, he, -⟩
      · exact .inl hread
      · exact .inr (.inl (List.tail_suffix t))
      · exact .inr (.inr ⟨_, he⟩)
    · left
      rw [List.cons_append, classAtom] at h
      · cases h
        refine ⟨s, ?_, rfl⟩
        rw [classAtom]
        exact hc
      · exact hc

/-- What follows the text is not taken for the end of a range or of a class. -/
theorem peekPast_restrict {c : Char}
    (ht : Closing t) (h : peekPast x (s ++ t) = some c) (hc : c = ']' ∨ c = '-') :
    peekPast x s = some c := by
  rcases peekPast_append x s t with hpeek | ⟨-, hblank⟩
  · rwa [hpeek] at h
  · -- the character is looked for past a gap, but it is neither in a gap nor in what follows
    have hplain : c ∉ closers ∧ ¬(isBlank c = true ∨ c = '#') := by
      rcases hc with rfl | rfl <;> decide
    rcases List.mem_append.1 (mem_of_peekPast h) with hs | hs
    · exact absurd (hblank c hs) hplain.2
    · exact absurd (ht c hs) hplain.1

/-- An item of a class is read from the text alone, or it ends in what follows. -/
theorem classItem_restrict {item : ClassSyntax}
    (ht : Closing t) (h : classItem x (s ++ t) = .ok (item, rest)) :
    (∃ r, classItem x s = .ok (item, r) ∧ rest = r ++ t) ∨ rest <:+ t := by
  obtain ⟨first, v, hfirst, h⟩ := classItem_eq_ok.1 h
  have hhyphen {w : Text} (hw : w <:+ t) (u : Text) : w ≠ '-' :: u :=
    (ht.of_suffix hw).ne_cons (by decide) u
  rcases classAtom_restrict ht hfirst with ⟨v, hread, rfl⟩ | hlate | ⟨kind, rfl⟩
  · rcases gap_append_cases x v t with ⟨-, hlate⟩ | ⟨c, w, hgap, happend⟩
    · -- a gap up to the end of the text, and what follows the text is no hyphen
      right
      rcases h with ⟨u, hu, -⟩ | ⟨u, _, _, _, _, hu, -⟩ | ⟨-, -, -, rfl⟩
      · exact absurd hu (hhyphen hlate u)
      · exact absurd hu (hhyphen hlate u)
      · exact hlate
    · rw [happend] at h
      -- a hyphen that ends the class, a range, or one member, as on the text alone
      rcases h with ⟨u, hu, hpeek, hm, rfl⟩ | ⟨u, lo, hi, b, b', hu, hpeek, rfl, hlast, hle, rfl⟩ |
        ⟨-, hplain, hm, rfl⟩
      · left
        cases hu
        exact ⟨'-' :: w, classItem_eq_ok.2 ⟨first, v, hread, .inl ⟨w, hgap,
          hpeek.imp (fun h => peekPast_restrict ht h (.inl rfl))
            (fun h => peekPast_restrict ht h (.inr rfl)), hm, rfl⟩⟩, rfl⟩
      · cases hu
        rcases gap_append_cases x w t with ⟨-, hlate⟩ | ⟨d, y, hgap', happend'⟩
        · right
          rcases classAtom_restrict (ht.of_suffix hlate) (s := []) hlast with
            ⟨r, hr, -⟩ | hrest | ⟨_, hkind⟩
          · cases hr
          · exact hrest.trans hlate
          · cases hkind
        · rw [happend'] at hlast
          rcases classAtom_restrict ht (s := d :: y) hlast with ⟨r, hr, rfl⟩ | hrest | ⟨_, hkind⟩
          · left
            -- the gap behind the hyphen ends within the text, and so does what is seen past it
            have hpeek' : peekPast x (w ++ t) = peekPast x w := by
              rcases peekPast_append x w t with hpeek | ⟨hnil, -⟩
              · exact hpeek
              · rw [hnil] at hgap'
                cases hgap'
            rw [hpeek'] at hpeek
            refine ⟨r, classItem_eq_ok.2 ⟨_, v, hread, .inr (.inl ?_)⟩, rfl⟩
            exact ⟨w, lo, hi, b, b', hgap, hpeek, rfl, hgap' ▸ hr, hle, rfl⟩
          · exact .inr hrest
          · cases hkind
      · left
        refine ⟨c :: w, ?_, rfl⟩
        refine classItem_eq_ok.2 ⟨first, v, hread, .inr (.inr ⟨?_, ?_, hm, hgap.symm⟩)⟩
        · rw [hgap]
          simp
        · intro u hu
          cases hgap.symm.trans hu
          exact hplain _ rfl
  · right
    rcases h with ⟨u, hu, -⟩ | ⟨u, _, _, _, _, hu, -⟩ | ⟨-, -, -, rfl⟩
    · exact absurd hu (hhyphen ((gap_suffix x v).trans hlate) u)
    · exact absurd hu (hhyphen ((gap_suffix x v).trans hlate) u)
    · exact (gap_suffix x v).trans hlate
  · -- a place is no member of a class
    rcases h with ⟨_, _, _, hm, _⟩ | ⟨_, _, _, _, _, _, _, hfirst, _⟩ | ⟨_, _, hm, _⟩
    · cases hm
    · cases hfirst
    · cases hm

/-- A class does not end in what follows the text. -/
theorem classRest_closing
    (ht : Closing t) (level : ClassLevel) (around : List ClassLevel) (p : Syntax × Text) :
    classRest x level around t ≠ .ok p := by
  -- no bracket or operator is a closing character, so that only members are left to be read
  fun_induction classRest x level around t with
  | case1 => simp
  | case9 => simp
  | case10 level around w c u _ _ _ _ _ hw item v hi ih =>
    have hu : c :: u <:+ w := hw ▸ gap_suffix x w
    rcases classItem_restrict (ht.of_suffix hu) (s := []) hi with ⟨r, hr, -⟩ | hv
    · cases hr
    · exact ih (ht.of_suffix (hv.trans hu))
  | case2 _ _ w _ hw => exact absurd hw (ht.gap_ne_cons (by decide) x _)
  | case3 _ _ w _ hw => exact absurd hw (ht.gap_ne_cons (by decide) x _)
  | case4 _ w _ hw => exact absurd hw (ht.gap_ne_cons (by decide) x _)
  | case5 _ w _ hw => exact absurd hw (ht.gap_ne_cons (by decide) x _)
  | case6 _ _ w _ hw => exact absurd hw (ht.gap_ne_cons (by decide) x _)
  | case7 _ _ w _ hw => exact absurd hw (ht.gap_ne_cons (by decide) x _)
  | case8 _ _ w _ hw => exact absurd hw (ht.gap_ne_cons (by decide) x _)

/-- What follows the text completes no named class. -/
theorem namedClass?_closing (ht : Closing t) (s : Text) :
    namedClass? (s ++ t) = (namedClass? s).map fun (item, rest) => (item, rest ++ t) := by
  cases t with
  | nil => simp
  | cons c u => exact namedClass?_append s u (ht c List.mem_cons_self)

/-- A member after which a class ends before what follows the text. -/
theorem classItem_bind_restrict {level : ClassLevel} {around : List ClassLevel} {p : Syntax × Text}
    (ht : Closing t)
    (h : (classItem x (s ++ t) >>= fun q => classRest x (level.push q.1) around q.2) = .ok p) :
    ∃ item r, classItem x s = .ok (item, r) ∧
      classRest x (level.push item) around (r ++ t) = .ok p := by
  obtain ⟨⟨item, v⟩, hitem, h⟩ := bind_eq_ok.1 h
  rcases classItem_restrict ht hitem with ⟨r, hr, rfl⟩ | hv
  · exact ⟨item, r, hr, h⟩
  · exact absurd h (classRest_closing (ht.of_suffix hv) _ _ _)

/-- A class that ends is read from the text alone: no closing character ends one. -/
theorem classRest_restrict {level : ClassLevel} {around : List ClassLevel} {e : Syntax}
    (ht : Closing t) (h : classRest x level around (s ++ t) = .ok (e, rest)) :
    ∃ r, classRest x level around s = .ok (e, r) ∧ rest = r ++ t := by
  have hplain : ∀ c ∈ closers, c ≠ '[' ∧ c ≠ ']' ∧ c ∉ ['&', '-', '~'] :=
    forall_closers.2 (by decide)
  -- what follows the text does not make an operator of its last character
  have hop {c : Char} {v : Text} (hand : ∀ w, c = '&' → v = '&' :: w → False)
      (hhyphen : ∀ w, c = '-' → v = '-' :: w → False)
      (htilde : ∀ w, c = '~' → v = '~' :: w → False) :
      (v ++ t).head? = some c → c ∉ ['&', '-', '~'] := by
    cases v with
    | nil => exact fun hc => (hplain c (ht c (List.mem_of_mem_head? hc))).2.2
    | cons d v => grind
  -- the induction follows the reading of the text alone
  fun_induction classRest x level around s with
  | case1 level around s hs =>
    -- the text ends inside the class
    exfalso
    rcases gap_append_cases x s t with ⟨-, hlate⟩ | ⟨c, v, hs', -⟩
    · cases hgap : gap x (s ++ t) with
      | nil =>
        rw [classRest] at h
        split at h <;> grind
      | cons c u =>
        rw [hgap] at hlate
        obtain ⟨hopen, hclose, hop⟩ := hplain c (ht c (hlate.subset List.mem_cons_self))
        rw [classRest_bind hgap hopen hclose fun _ => hop] at h
        obtain ⟨_, _, hitem, -⟩ := classItem_bind_restrict (ht.of_suffix hlate) (s := []) h
        cases hitem
    · cases hs.symm.trans hs'
  | case2 level around s v hs item w hn ih =>
    have hn' : namedClass? (v ++ t) = some (item, w ++ t) := by
      rw [namedClass?_closing ht, hn]
      rfl
    rw [classRest_named (gap_append_cons hs t) hn'] at h
    exact ih h
  | case3 level around s v hs hn ih =>
    have hn' : namedClass? (v ++ t) = none := by
      rw [namedClass?_closing ht, hn]
      rfl
    rw [classRest_bracket (gap_append_cons hs t) hn'] at h
    by_cases hhead : (classHead x v).2 = []
    · exact absurd h (classRest_closing (ht.of_suffix (classHead_late hhead)) _ _ _)
    · rw [classHead_append hhead] at h
      exact ih h
  | case4 level s v hs =>
    have hs' := gap_append_cons hs t
    rw [classRest] at h
    split at h <;> grind
  | case5 level s v hs outer around ih =>
    have hs' := gap_append_cons hs t
    rw [classRest] at h
    split at h <;> grind
  | case6 level around s v hs ih | case7 level around s v hs ih | case8 level around s v hs ih =>
    have hs' := gap_append_cons hs t
    rw [classRest] at h
    split at h <;> grind
  | case9 level around s c v hopen hclose hand hhyphen htilde hs f hi =>
    rw [classRest_bind (gap_append_cons hs t) hopen hclose (hop hand hhyphen htilde)] at h
    obtain ⟨_, _, hitem, -⟩ := classItem_bind_restrict ht (s := c :: v) h
    cases hi.symm.trans hitem
  | case10 level around s c v hopen hclose hand hhyphen htilde hs item w hi ih =>
    rw [classRest_bind (gap_append_cons hs t) hopen hclose (hop hand hhyphen htilde)] at h
    obtain ⟨_, _, hitem, h⟩ := classItem_bind_restrict ht (s := c :: v) h
    cases hi.symm.trans hitem
    exact ih h

/-- A class is read from the text alone. -/
theorem charClass_restrict {e : Syntax}
    (ht : Closing t) (h : charClass x (s ++ t) = .ok (e, rest)) :
    ∃ r, charClass x s = .ok (e, r) ∧ rest = r ++ t := by
  rw [charClass] at h
  -- the head of the class does not take in all of the text, as the class would not end then
  by_cases hhead : (classHead x s).2 = []
  · exact absurd h (classRest_closing (ht.of_suffix (classHead_late hhead)) _ _ _)
  · rw [classHead_append hhead] at h
    exact classRest_restrict ht h

/-! ## Repetition -/

/-- A run goes on into what follows when it takes in all of the text, and stays as it is otherwise.
-/
theorem dropWhile_append_cases (p : Char → Bool) (s t : Text) :
    s.dropWhile p = [] ∧ (s ++ t).dropWhile p <:+ t ∨
      s.dropWhile p ≠ [] ∧ (s ++ t).dropWhile p = s.dropWhile p ++ t := by
  cases hs : s.dropWhile p with
  | nil =>
    left
    rw [List.dropWhile_append_of_pos (List.dropWhile_eq_nil_iff.1 hs)]
    exact ⟨rfl, List.dropWhile_suffix p⟩
  | cons c v => exact .inr ⟨by simp, (takeWhile_append_cons hs t).2⟩

/-- A character behind a run that the text after it lacks was found in the text itself. -/
theorem dropWhile_restrict {p : Char → Bool} {c : Char} (h : (s ++ t).dropWhile p = c :: rest)
    (hc : c ∉ t) : ∃ r, s.dropWhile p = c :: r ∧ rest = r ++ t := by
  rcases dropWhile_append_cases p s t with ⟨-, hlate⟩ | ⟨hne, happend⟩
  · rw [h] at hlate
    exact absurd (hlate.subset List.mem_cons_self) hc
  · obtain ⟨d, v, hv⟩ := List.exists_cons_of_ne_nil hne
    rw [hv] at happend
    cases happend.symm.trans h
    exact ⟨v, hv, rfl⟩

/-- A number is taken from the front. -/
theorem countNumber_suffix {n : Option Nat} (h : countNumber x s = .ok (n, rest)) : rest <:+ s := by
  have hdigits {run v : Text} (hsp : spaced x Char.isDigit (s.dropWhile isBlank) = (run, v)) :
      v.dropWhile isBlank <:+ s := by
    have hv := spaced_suffix x Char.isDigit (s.dropWhile isBlank)
    rw [hsp] at hv
    exact ((List.dropWhile_suffix _).trans hv).trans (List.dropWhile_suffix _)
  rw [countNumber] at h
  split at h
  · next hsp =>
    cases h
    exact hdigits hsp
  · next hsp =>
    split at h
    · cases h
      exact hdigits hsp
    · cases h

/-- A number before something else ends before what follows the text. -/
theorem countNumber_restrict {n : Option Nat} {c : Char}
    (h : countNumber x (s ++ t) = .ok (n, c :: rest)) (hc : c ∉ t) :
    ∃ r, countNumber x s = .ok (n, c :: r) ∧ rest = r ++ t := by
  -- the character after the number stands in the text, and so do the digits and blanks before it
  have hdigits {run v : Text} (hsp : spaced x Char.isDigit ((s ++ t).dropWhile isBlank) = (run, v))
      (hv : v.dropWhile isBlank = c :: rest) :
      ∃ u r, spaced x Char.isDigit (s.dropWhile isBlank) = (run, u) ∧
        u.dropWhile isBlank = c :: r ∧ rest = r ++ t := by
    have hlast : c :: rest <:+ v := hv ▸ List.dropWhile_suffix isBlank
    have hne {w : Text} (hw : w <:+ t) : ¬ c :: rest <:+ w := fun h =>
      hc ((h.trans hw).subset List.mem_cons_self)
    have hsuffix := spaced_suffix x Char.isDigit ((s ++ t).dropWhile isBlank)
    rw [hsp] at hsuffix
    rcases dropWhile_append_cases isBlank s t with ⟨-, hlate⟩ | ⟨-, happend⟩
    · exact absurd (hlast.trans hsuffix) (hne hlate)
    · rw [happend] at hsp
      rcases spaced_append_cases x Char.isDigit (s.dropWhile isBlank) t with
        ⟨-, hlate⟩ | ⟨-, happend⟩
      · rw [hsp] at hlate
        exact absurd hlast (hne hlate)
      · cases happend.symm.trans hsp
        obtain ⟨r, hr, rfl⟩ := dropWhile_restrict hv hc
        exact ⟨_, r, rfl, hr, rfl⟩
  rw [countNumber] at h
  rw [countNumber]
  split at h
  · next hsp =>
    obtain ⟨hn, hv⟩ := Prod.mk.inj (Except.ok.inj h)
    obtain ⟨u, r, hu, hr, rfl⟩ := hdigits hsp hv
    refine ⟨r, ?_, rfl⟩
    rw [hu, ← hr, ← hn]
  · next hrun hsp =>
    split at h
    · next hle =>
      obtain ⟨hn, hv⟩ := Prod.mk.inj (Except.ok.inj h)
      obtain ⟨u, r, hu, hr, rfl⟩ := hdigits hsp hv
      refine ⟨r, ?_, rfl⟩
      rw [hu, ← hr, ← hn]
      simp only [if_pos hle]
    · cases h

/-- A number behind a gap, before something that does not follow the text, is read from the text
alone. -/
theorem countNumber_gap_restrict {n : Option Nat} {c : Char}
    (h : countNumber x (gap x (s ++ t)) = .ok (n, c :: rest)) (hc : c ∉ t) :
    ∃ r, countNumber x (gap x s) = .ok (n, c :: r) ∧ rest = r ++ t := by
  rcases gap_append_cases x s t with ⟨-, hlate⟩ | ⟨d, v, hs, happend⟩
  · exact absurd (((countNumber_suffix h).trans hlate).subset List.mem_cons_self) hc
  · rw [happend] at h
    rw [hs]
    exact countNumber_restrict (s := d :: v) h hc

/-- The bounds of a repetition are closed by a brace, so they are read from the text alone. -/
theorem countBounds_restrict {lo : Nat} {hi : Option Nat}
    (ht : Closing t) (h : countBounds x (s ++ t) = .ok (lo, hi, rest)) :
    ∃ r, countBounds x s = .ok (lo, hi, r) ∧ rest = r ++ t := by
  rw [countBounds] at h
  obtain ⟨⟨least, v⟩, hleast, h⟩ := bind_eq_ok.1 h
  rw [countBounds]
  have hbrace : '\x7d' ∉ t := ht.not_mem (by decide)
  simp only at h
  split at h
  · next lo' w =>
    obtain ⟨r, hr, rfl⟩ := countNumber_gap_restrict hleast (ht.not_mem (by decide))
    -- after the comma the brace or a second bound
    split at h
    · next u hu =>
      cases h
      obtain ⟨y, hy, rfl⟩ := gap_restrict hu hbrace
      refine ⟨y, bind_eq_ok.2 ⟨_, hr, ?_⟩, rfl⟩
      simp only [hy]
      rfl
    · next hplain =>
      obtain ⟨⟨most, u⟩, hmost, h⟩ := bind_eq_ok.1 h
      split at h
      · next hi' y hmost' =>
        cases hmost'
        obtain ⟨y, hy, rfl⟩ := countNumber_gap_restrict hmost hbrace
        split at h
        · next hle =>
          cases h
          refine ⟨y, bind_eq_ok.2 ⟨_, hr, ?_⟩, rfl⟩
          simp only
          split
          · next v hv => exact absurd (gap_append_cons hv t) (hplain _)
          · exact bind_eq_ok.2 ⟨_, hy, if_pos hle⟩
        · cases h
      · cases h
  · next n w =>
    cases h
    obtain ⟨r, hr, rfl⟩ := countNumber_gap_restrict hleast hbrace
    exact ⟨r, bind_eq_ok.2 ⟨_, hr, rfl⟩, rfl⟩
  · cases h

/-- No closing character is a question mark, so none makes a repetition lazy. -/
theorem laziness_closing
    (ht : Closing t) (s : Text) : laziness (s ++ t) = ((laziness s).1, (laziness s).2 ++ t) := by
  cases t with
  | nil => simp
  | cons c u =>
    refine laziness_append s u ?_
    rintro rfl
    exact absurd (ht '?' List.mem_cons_self) (by decide)

/-! ## Groups -/

/-- A text is cut before what follows when the character is not found there. -/
theorem cut?_restrict {c : Char} {before : Text} (h : Text.cut? c (s ++ t) = some (before, rest))
    (hc : c ∉ t) : ∃ r, Text.cut? c s = some (before, r) ∧ rest = r ++ t := by
  induction s generalizing before with
  | nil =>
    rw [List.nil_append, Text.cut?_of_not_mem hc] at h
    cases h
  | cons d s ih =>
    -- the character is found first at the head or later
    rw [List.cons_append, Text.cut?] at h
    rw [Text.cut?]
    split at h
    · next hd =>
      cases h
      exact ⟨s, if_pos hd, rfl⟩
    · next hd =>
      obtain ⟨⟨b, a⟩, hb, he⟩ := Option.map_eq_some_iff.1 h
      cases he
      obtain ⟨r, hr, rfl⟩ := ih hb
      refine ⟨r, ?_, rfl⟩
      rw [if_neg hd, hr]
      rfl

/-- The name of a group is closed by an angle bracket, so it is read from the text alone. -/
theorem groupName_restrict {g : GroupHead}
    (ht : Closing t) (h : groupName (s ++ t) = .ok (g, rest)) :
    ∃ r, groupName s = .ok (g, r) ∧ rest = r ++ t := by
  rw [groupName] at h
  rw [groupName]
  split at h
  · cases h
  · next name v hcut =>
    obtain ⟨r, hr, rfl⟩ := cut?_restrict hcut (ht.not_mem (by decide))
    rw [hr]
    split at h
    · next hname =>
      cases h
      exact ⟨r, if_pos hname, rfl⟩
    · cases h

/-- A list of flags that ends the text is closed by a parenthesis after it. -/
theorem groupFlags_restrict {g : GroupHead}
    (ht : Closing t) (h : groupFlags (s ++ t) = .ok (g, rest)) :
    (∃ r, groupFlags s = .ok (g, r) ∧ rest = r ++ t) ∨
      groupFlags s = .error .flagGroup ∧ ')' :: rest <:+ t := by
  rw [groupFlags] at h
  rw [groupFlags]
  rcases dropWhile_append_cases (fun c => c ≠ ':' && c ≠ ')') s t with ⟨hs, hlate⟩ | ⟨hs, happend⟩
  · -- the colon is no closing character, but the parenthesis is one
    right
    rw [hs]
    refine ⟨rfl, ?_⟩
    split at h
    · next heq =>
      rw [heq] at hlate
      exact absurd (hlate.subset List.mem_cons_self) (ht.not_mem (by decide))
    · next heq =>
      rw [heq] at hlate
      split at h
      · cases h
      · obtain ⟨change, -, h⟩ := bind_eq_ok.1 h
        cases h
        exact hlate
    · cases h
  · left
    obtain ⟨c, v, hv⟩ := List.exists_cons_of_ne_nil hs
    obtain ⟨htake, hdrop⟩ := takeWhile_append_cons hv t
    rw [htake, hdrop] at h
    rw [hv]
    split at h
    · next heq =>
      cases heq
      obtain ⟨change, hchange, h⟩ := bind_eq_ok.1 h
      cases h
      exact ⟨v, bind_eq_ok.2 ⟨_, hchange, rfl⟩, rfl⟩
    · next heq =>
      cases heq
      split at h
      · cases h
      · next hne =>
        obtain ⟨change, hchange, h⟩ := bind_eq_ok.1 h
        cases h
        refine ⟨v, ?_, rfl⟩
        simp only [if_neg hne]
        exact bind_eq_ok.2 ⟨_, hchange, rfl⟩
    · cases h

/-- A parenthesis that ends the text opens a group before what follows. -/
theorem groupHead_restrict {g : GroupHead}
    (ht : Closing t) (h : groupHead x (s ++ t) = .ok (g, rest)) :
    (∃ r, groupHead x s = .ok (g, r) ∧ rest = r ++ t) ∨
      groupHead x s = .ok (g, []) ∧ rest <:+ t ∨
        groupHead x s = .error .flagGroup ∧ ')' :: rest <:+ t := by
  rcases gap_append_cases x s t with ⟨hs, hlate⟩ | ⟨c, v, hs, happend⟩
  · -- no question mark follows
    right; left
    rw [groupHead, hs]
    cases hw : gap x (s ++ t) with
    | nil =>
      rw [groupHead, hw] at h
      cases h
      exact ⟨rfl, List.nil_suffix⟩
    | cons c u =>
      rw [hw] at hlate
      rw [groupHead_plain hw] at h
      · cases h
        exact ⟨rfl, hlate⟩
      · rintro rfl
        exact absurd (ht _ (hlate.subset List.mem_cons_self)) (by decide)
  · have hfirst {c : Char} (hc : c ∉ closers) : t.head? ≠ some c := fun h =>
      ht.not_mem hc (List.mem_of_mem_head? h)
    by_cases hc : c = '?'
    · subst hc
      -- the question mark begins the same kind of group without what follows
      rcases groupHead_cases hs with ⟨w, rfl, hhead⟩ | ⟨w, rfl, hlook, hhead⟩ | hhead |
        ⟨hmark, hname, hhead⟩
      · left
        rw [groupHead_named happend] at h
        rw [hhead]
        exact groupName_restrict ht h
      · left
        rw [groupHead_angle happend] at h
        · rw [hhead]
          exact groupName_restrict ht h
        · cases w with
          | nil => simp [hfirst (c := '=') (by decide), hfirst (c := '!') (by decide)]
          | cons d w => exact hlook
      · rw [hhead] at h
        cases h
      · rw [groupHead_flags happend] at h
        · rw [hhead]
          exact (groupFlags_restrict ht h).imp_right .inr
        · cases v with
          | nil =>
            simp [hfirst (c := '<') (by decide), hfirst (c := '=') (by decide),
              hfirst (c := '!') (by decide)]
          | cons d v => exact hmark
        -- a name would have to be begun within the text, as no closing character begins one
        · rcases v with _ | ⟨d, _ | ⟨e, v⟩⟩
          · have := hfirst (c := 'P') (by decide)
            cases t <;> simp_all
          · have := hfirst (c := '<') (by decide)
            cases t <;> simp_all
          · exact hname
    · left
      rw [groupHead_plain happend hc] at h
      cases h
      exact ⟨_, groupHead_plain hs hc, rfl⟩

/-! ## Items -/

/-- How an item that was read before more text stands to the text alone. -/
inductive Seam (x : Bool) (c : Char) (s t : Text) (a : Action) (rest : Text) : Prop
  /-- It ends within the text. -/
  | within (r : Text) (h : action x c s = .ok (a, r)) (hrest : rest = r ++ t)
  /-- It ends the text, and a gap that belongs to it may go on. -/
  | final (h : action x c s = .ok (a, [])) (hrest : rest <:+ t)
  /-- A backslash ends the text and takes a character of what follows. -/
  | escape (h : action x c s = .error .escape) (hrest : rest = t.tail)
  /-- A list of flags ends the text and is closed by what follows. -/
  | flags (h : action x c s = .error .flagGroup) (hrest : ')' :: rest <:+ t)
  /-- A brace after a boundary ends the text and is left for a count. -/
  | brace (v : Text) (item : Syntax) (ha : a = .push item) (hv : gap x v = [])
    (hrest : rest = '\x7b' :: (v ++ t))

/-- An item that was read before closing characters is read from the text alone, but where it ends
the text. -/
theorem action_restrict {c : Char} {a : Action}
    (ht : Closing t) (h : action x c (s ++ t) = .ok (a, rest)) :
    Seam x c s t a rest := by
  unfold action at h
  split at h
  · obtain ⟨⟨g, r⟩, hhead, h⟩ := bind_eq_ok.1 h
    cases h
    rcases groupHead_restrict ht hhead with ⟨r, hr, rfl⟩ | ⟨hr, hlate⟩ | ⟨hr, hlate⟩
    · exact .within r (bind_eq_ok.2 ⟨_, hr, rfl⟩) rfl
    · exact .final (bind_eq_ok.2 ⟨_, hr, rfl⟩) hlate
    · exact .flags (bind_eq_error.2 (.inl hr)) hlate
  · cases h
    exact .within s rfl rfl
  · cases h
    exact .within s rfl rfl
  · obtain ⟨⟨item, r⟩, hclass, h⟩ := bind_eq_ok.1 h
    cases h
    obtain ⟨r, hr, rfl⟩ := charClass_restrict ht hclass
    exact .within r (bind_eq_ok.2 ⟨_, hr, rfl⟩) rfl
  · cases h
    rw [laziness_closing ht]
    exact .within _ rfl rfl
  · cases h
    rw [laziness_closing ht]
    exact .within _ rfl rfl
  · cases h
    rw [laziness_closing ht]
    exact .within _ rfl rfl
  · obtain ⟨⟨lo, hi, r⟩, hcount, h⟩ := bind_eq_ok.1 h
    cases h
    obtain ⟨r, hr, rfl⟩ := countBounds_restrict ht hcount
    -- a question mark that makes the count lazy may stand after a gap
    rcases gap_append_cases x r t with ⟨hgap, hlate⟩ | ⟨c, v, hgap, happend⟩
    · have hlazy := laziness_closing (ht.of_suffix hlate) []
      rw [List.nil_append] at hlazy
      rw [hlazy]
      refine .final (bind_eq_ok.2 ⟨_, hr, ?_⟩) hlate
      simp only [hgap]
      rfl
    · have hlazy := laziness_closing ht (c :: v)
      rw [List.cons_append] at hlazy
      rw [happend, hlazy]
      refine .within _ (bind_eq_ok.2 ⟨_, hr, ?_⟩) rfl
      simp only [hgap]
      rfl
  · obtain ⟨⟨e, r⟩, hescape, h⟩ := bind_eq_ok.1 h
    cases h
    rcases escape_restrict ht hescape with ⟨r, hr, rfl⟩ | ⟨rfl, rfl⟩ | ⟨v, -, hv, -, rfl⟩
    · exact .within r (bind_eq_ok.2 ⟨_, hr, rfl⟩) rfl
    · exact .escape rfl rfl
    · exact .brace v _ rfl hv rfl
  · cases h
    exact .within s rfl rfl
  · cases h
    exact .within s rfl rfl
  · cases h
    exact .within s rfl rfl
  · cases h
    refine .within s ?_ rfl
    unfold action
    split <;> simp_all

end Items

end Routing.Regex.Reader
