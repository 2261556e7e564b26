import Routing.Proofs.Regex.Restriction

/-!
# Reading inside a larger text

A text that was read to its end before closing characters, and inside other groups, reads by itself
and in the same way. There are three exceptions, and each of them is a fault when the text is read
alone: a parenthesis in it closes a group that stands around it, a backslash at its end escapes a
closing character, or a list of flags at its end is closed by one.

* `step_restrict` — one item
* `Unopened`, `Unopened.run_eq` — a parenthesis closes a group that the text does not open
* `RunSeam`, `run_restrict` — a whole text
* `scopes_run_closing` — what the closing characters do
* `Unopened.restrict` — closing characters other than a parenthesis close no group
-/

namespace Routing.Regex.Reader

/-! ## Closing what is not open -/

/-- Reading comes to a parenthesis that closes no group. -/
inductive Unopened : State → Text → Prop
  | here {st : State} {s u : Text} (hs : gap st.extended s = ')' :: u) (hscopes : st.scopes = []) :
    Unopened st s
  | later {st st' : State} {s u rest : Text} {c : Char} (hs : gap st.extended s = c :: u)
    (hstep : step st c u = .ok (st', rest)) (h : Unopened st' rest) : Unopened st s

/-- A parenthesis that closes no group is a fault. -/
theorem Unopened.run_eq {st : State} {s : Text} (h : Unopened st s) :
    run st s = .error .groupUnopened := by
  induction h with
  | @here st s u hs hscopes =>
    rw [run_of_gap_cons hs]
    refine bind_eq_error.2 (.inl ?_)
    refine bind_eq_error.2 (.inl ?_)
    rw [State.closeGroup, hscopes]
  | later hs hstep h ih =>
    rw [run_of_gap_cons hs]
    exact bind_eq_error.2 (.inr ⟨_, hstep, ih⟩)

/-! ## Before more text -/

/-- Behind a gap there is no other gap. -/
theorem skipGap_skipGap (comment : Bool) (s : Text) :
    skipGap false (skipGap comment s) = skipGap comment s := by
  induction s generalizing comment with
  | nil => cases comment <;> rfl
  | cons c s ih =>
    cases comment with
    | true => exact ih _
    | false =>
      rw [skipGap]
      split
      · exact ih _
      · next hc =>
        split
        · exact ih _
        · next hhash => rw [skipGap, if_neg hc, if_neg hhash]

/-- Behind a gap there is no other gap, in extended mode or not. -/
theorem gap_gap (x : Bool) (s : Text) : gap x (gap x s) = gap x s := by
  cases x with
  | false => rfl
  | true => exact skipGap_skipGap false s

/-- A gap before the text does not matter. -/
theorem run_gap (st : State) (s : Text) : run st (gap st.extended s) = run st s := by
  cases hs : gap st.extended s with
  | nil =>
    rw [run_of_gap_nil hs, run_of_gap_nil (gap_nil _)]
  | cons c u =>
    have hgap : gap st.extended (c :: u) = c :: u := by rw [← hs, gap_gap]
    rw [run_of_gap_cons hs, run_of_gap_cons hgap]

/-- A brace is no part of a gap. -/
theorem gap_brace (x : Bool) (s : Text) : gap x ('\x7b' :: s) = '\x7b' :: s := by
  cases x <;> rfl

/-- A count needs a number. -/
theorem step_brace {st : State} {v t : Text} (ht : Closing t) (hv : gap st.extended v = [])
    (p : State × Text) : step st '\x7b' (v ++ t) ≠ .ok p := by
  intro hstep
  obtain ⟨a, haction, -⟩ := step_eq_ok.1 hstep
  obtain ⟨⟨lo, hi, r⟩, hcount, -⟩ := bind_eq_ok.1 haction
  obtain ⟨r', hr, -⟩ := countBounds_restrict ht hcount
  rw [countBounds, hv, countNumber, List.dropWhile_nil, spaced] at hr
  cases hr

/-- How an item that was read before more text and inside other groups stands to the text alone; but
for the group that it may close, the alternatives are those of `Seam`. -/
inductive StepSeam (st : State) (c : Char) (s t : Text) (scopes : List Scope) (names : List Text)
    (st'' : State) (rest : Text) : Prop
  | unopened (hc : c = ')') (hscopes : st.scopes = [])
  | within (st' : State) (r : Text) (h : step st c s = .ok (st', r))
    (hst : st'' = st'.over scopes names) (hrest : rest = r ++ t)
  | final (st' : State) (h : step st c s = .ok (st', [])) (hst : st'' = st'.over scopes names)
    (hrest : rest <:+ t)
  | escape (st' : State) (h : step st c s = .error .escape) (hst : st'' = st'.over scopes names)
    (hrest : rest = t.tail)
  | flags (st' : State) (h : step st c s = .error .flagGroup) (hst : st'' = st'.over scopes names)
    (hrest : ')' :: rest <:+ t)
  | brace (v : Text) (hv : gap st''.extended v = []) (hrest : rest = '\x7b' :: (v ++ t))

/-- An item that was read before closing characters and inside other groups, told of the text alone.
-/
theorem step_restrict {st st'' : State} {c : Char} {s t rest : Text} {scopes : List Scope}
    {names : List Text} (ht : Closing t)
    (h : step (st.over scopes names) c (s ++ t) = .ok (st'', rest)) :
    StepSeam st c s t scopes names st'' rest := by
  obtain ⟨a, haction, hact⟩ := step_eq_ok.1 h
  have hseam : Seam st.extended c s t a rest := action_restrict ht haction
  rcases act_of_over hact with ⟨st', hact', rfl⟩ | ⟨rfl, hscopes⟩
  · cases hseam with
    | within r h hrest => exact .within st' r (step_eq_ok.2 ⟨a, h, hact'⟩) rfl hrest
    | final h hrest => exact .final st' (step_eq_ok.2 ⟨a, h, hact'⟩) rfl hrest
    | escape h hrest => exact .escape st' (step_eq_error h) rfl hrest
    | flags h hrest => exact .flags st' (step_eq_error h) rfl hrest
    | brace v item ha hv hrest =>
      subst ha
      cases hact'
      exact .brace v hv hrest
  · exact .unopened ((action_groups haction).1 rfl) hscopes

/-- How a text that was read before more text and inside other groups stands to the text alone. -/
inductive RunSeam (st : State) (s t : Text) (scopes : List Scope) (names : List Text)
    (stop : State) : Prop
  /-- A parenthesis in it closes no group of the text. -/
  | unopened (h : Unopened st s)
  /-- It reads alone. -/
  | read (st' : State) (w : Text) (h : run st s = .ok st') (hw : w <:+ t)
    (hrest : run (st'.over scopes names) w = .ok stop)
  /-- It ends in a backslash that takes a character of what follows. -/
  | escape (st' : State) (h : run st s = .error .escape)
    (hrest : run (st'.over scopes names) t.tail = .ok stop)
  /-- It ends in a list of flags that what follows closes. -/
  | flags (st' : State) (w : Text) (h : run st s = .error .flagGroup) (hw : ')' :: w <:+ t)
    (hrest : run (st'.over scopes names) w = .ok stop)

theorem run_of_step {st st' : State} {c : Char} {s u rest : Text} (hs : gap st.extended s = c :: u)
    (hstep : step st c u = .ok (st', rest)) : run st s = run st' rest := by
  rw [run_of_gap_cons hs, hstep]
  rfl

/-- An item in front changes nothing of how a text stands to what follows. -/
theorem RunSeam.of_step {st st' stop : State} {c : Char} {s t u rest : Text} {scopes : List Scope}
    {names : List Text} (h : RunSeam st' rest t scopes names stop)
    (hs : gap st.extended s = c :: u) (hstep : step st c u = .ok (st', rest)) :
    RunSeam st s t scopes names stop := by
  have hrun := run_of_step hs hstep
  cases h with
  | unopened h => exact .unopened (.later hs hstep h)
  | read st₁ w h hw hrest => exact .read st₁ w (hrun.trans h) hw hrest
  | escape st₁ h hrest => exact .escape st₁ (hrun.trans h) hrest
  | flags st₁ w h hw hrest => exact .flags st₁ w (hrun.trans h) hw hrest

/-- An item leaves less text than there was. -/
theorem length_lt_of_step {st st' : State} {c : Char} {s u rest : Text}
    (hs : gap st.extended s = c :: u) (hstep : step st c u = .ok (st', rest)) :
    rest.length < s.length := by
  have hgap := length_gap_le st.extended s
  rw [hs] at hgap
  exact Nat.lt_of_lt_of_le (Nat.lt_succ_of_le (length_of_step hstep)) hgap

/-- A text that was read before closing characters and inside other groups. -/
theorem run_restrict {st stop : State} {s t : Text} {scopes : List Scope} {names : List Text}
    (ht : Closing t) (h : run (st.over scopes names) (s ++ t) = .ok stop) :
    RunSeam st s t scopes names stop := by
  rcases gap_append_cases st.extended s t with ⟨hs, hlate⟩ | ⟨c, u, hs, happend⟩
  · -- only a gap is left of the text, and it may go on into what follows
    refine .read st _ (run_of_gap_nil hs) hlate ?_
    rw [← h]
    exact run_gap (st.over scopes names) (s ++ t)
  · have hgap : gap (st.over scopes names).extended (s ++ t) = c :: (u ++ t) := happend
    rw [run_of_gap_cons hgap] at h
    obtain ⟨⟨st'', r⟩, hstep, h⟩ := bind_eq_ok.1 h
    have herror {f : Fault} (hf : step st c u = .error f) : run st s = .error f := by
      rw [run_of_gap_cons hs]
      exact bind_eq_error.2 (.inl hf)
    -- the first item ends within the text, and what is left is shorter; or the text ends with it
    cases step_restrict ht hstep with
    | unopened hc hscopes =>
      subst hc
      exact .unopened (.here hs hscopes)
    | within st' r' hst hover hrest =>
      subst hover hrest
      have hlt := length_lt_of_step hs hst
      exact (run_restrict ht h).of_step hs hst
    | final st' hst hover hlate =>
      subst hover
      refine .read st' r ?_ hlate h
      rw [run_of_step hs hst, run_of_gap_nil (gap_nil _)]
    | escape st' hst hover hrest =>
      subst hover hrest
      exact .escape st' (herror hst) h
    | flags st' hst hover hlate =>
      subst hover
      exact .flags st' r (herror hst) hlate h
    | brace v hv hrest =>
      -- the next item would be a count, which finds no number
      subst hrest
      rw [run_of_gap_cons (gap_brace _ _)] at h
      obtain ⟨p, hstep, -⟩ := bind_eq_ok.1 h
      exact absurd hstep (step_brace ht hv p)
termination_by s.length

/-- A closing character is one of three. -/
theorem eq_of_mem_closers {c : Char} (hc : c ∈ closers) : c = ')' ∨ c = '$' ∨ c = '\n' := by
  simpa [closers] using hc

/-- Only a line feed is skipped. -/
theorem gap_closer (x : Bool) {c : Char} (hc : c ∈ closers) (w : Text) :
    gap x (c :: w) = c :: w ∨ c = '\n' ∧ gap x (c :: w) = gap x w := by
  rcases eq_of_mem_closers hc with rfl | rfl | rfl
  · exact .inl (gap_paren x w)
  · cases x <;> exact .inl rfl
  · cases x with
    | false => exact .inl rfl
    | true => exact .inr ⟨rfl, rfl⟩

/-- A text of closing characters closes a group for each parenthesis. -/
theorem scopes_run_closing {st stop : State} {w : Text} (hw : Closing w)
    (h : run st w = .ok stop) : stop.scopes = st.scopes.drop (w.count ')') := by
  induction w generalizing st with
  | nil =>
    rw [run_of_gap_nil (gap_nil _)] at h
    cases h
    rfl
  | cons c w ih =>
    have hw' := hw.of_suffix (List.suffix_cons c w)
    have hc := hw c List.mem_cons_self
    rcases gap_closer st.extended hc w with hgap | ⟨rfl, hgap⟩
    · rw [run_of_gap_cons hgap] at h
      obtain ⟨⟨st', r⟩, hstep, h⟩ := bind_eq_ok.1 h
      -- a parenthesis closes a group, an anchor and a line feed are items
      rcases eq_of_mem_closers hc with rfl | rfl | rfl
      · obtain ⟨a, haction, hact⟩ := step_eq_ok.1 hstep
        cases haction
        obtain ⟨scope, outer, hscopes, rfl⟩ := State.closeGroup_eq_ok.1 hact
        rw [ih hw' h, List.count_cons_self, hscopes]
        rfl
      · cases hstep
        rw [ih hw' h]
        rfl
      · cases hstep
        rw [ih hw' h]
        rfl
    · rw [← run_gap, hgap, run_gap] at h
      rw [ih hw' h]
      rfl

theorem State.over_nil (st : State) : st.over [] [] = st := by
  simp [State.over]

/-- Closing characters without a parenthesis close no group. -/
theorem Unopened.mem_paren {st : State} {w : Text} (h : Unopened st w) (hw : Closing w) :
    ')' ∈ w := by
  induction h with
  | @here st s u hs hscopes =>
    exact (gap_suffix st.extended s).subset (hs ▸ List.mem_cons_self)
  | @later st st' s u rest c hs hstep h ih =>
    have hu : c :: u <:+ s := hs ▸ gap_suffix st.extended s
    have hrest : rest <:+ s → ')' ∈ s := fun hrest => hrest.subset (ih (hw.of_suffix hrest))
    have hu' := (List.suffix_cons c u).trans hu
    -- an item that is no parenthesis, and what is found behind it
    rcases eq_of_mem_closers (hw c (hu.subset List.mem_cons_self)) with rfl | rfl | rfl
    · exact hu.subset List.mem_cons_self
    · cases hstep
      exact hrest hu'
    · cases hstep
      exact hrest hu'

/-- What closes no group is not in closing characters without a parenthesis. -/
theorem Unopened.restrict {st : State} {s t : Text} (h : Unopened st (s ++ t)) (ht : Closing t)
    (hparen : ')' ∉ t) : Unopened st s := by
  generalize hv : s ++ t = v at h
  induction h generalizing s with
  | @here st v u hs hscopes =>
    subst hv
    obtain ⟨r, hr, -⟩ := gap_restrict hs hparen
    exact .here hr hscopes
  | @later st st' v u rest c hs hstep h ih =>
    subst hv
    -- reading that is past the text finds no parenthesis any more
    have hlate {w : Text} (hw : w <:+ t) {st : State} (h : Unopened st w) : False :=
      hparen (hw.subset (h.mem_paren (ht.of_suffix hw)))
    rcases gap_append_cases st.extended s t with ⟨-, hsuffix⟩ | ⟨d, w, hs', happend⟩
    · have hgap : gap st.extended (gap st.extended (s ++ t)) = c :: u := by rw [gap_gap, hs]
      exact (hlate hsuffix (.later hgap hstep h)).elim
    · cases happend.symm.trans hs
      rw [← st.over_nil] at hstep
      cases step_restrict ht hstep with
      | unopened hc hscopes =>
        subst hc
        exact .here hs' hscopes
      | within st₁ r hst hover hrest =>
        rw [State.over_nil] at hover
        subst hover
        exact .later hs' hst (ih hrest.symm)
      | final st₁ hst hover hsuffix => exact (hlate hsuffix h).elim
      | escape st₁ hst hover hrest =>
        exact (hlate (List.tail_suffix t) (hrest ▸ h)).elim
      | flags st₁ hst hover hsuffix => exact absurd (hsuffix.subset List.mem_cons_self) hparen
      | brace v hv hrest =>
        subst hrest
        cases h with
        | here hs _ =>
          rw [gap_brace] at hs
          cases hs
        | later hs hstep _ =>
          rw [gap_brace] at hs
          cases hs
          exact absurd hstep (step_brace ht hv _)

end Routing.Regex.Reader
