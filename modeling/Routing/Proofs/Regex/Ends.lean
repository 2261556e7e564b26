import Routing.Proofs.Regex.Restriction

/-!
# Where items end

Whoever looks for an item in the text of an expression has to know where items begin. None ends in
the middle of an escape: what has been read before the next one ends in an even number of
backslashes.

* `Reader.Clear` — what is left of a text is not escaped by what has been read
* `Reader.clear_gap` — after a gap
* `Reader.clear_escape`, `Reader.charClass_ends`, `Reader.countBounds_ends`,
  `Reader.clear_groupHead` — after the items that span several characters
* `Reader.clear_action` — after any item
-/

namespace Routing.Regex.Reader

/-! ## Escaped or not -/

/-- Whether an odd number of backslashes stands at the end of the text; `odd` tells so of what
stands before it. -/
def oddAfter (odd : Bool) (s : Text) : Bool :=
  s.foldl (fun odd c => c = '\\' && !odd) odd

/-- A text has been read up to a rest that is not escaped; `odd` tells whether the text is. -/
def Clear (odd : Bool) (s rest : Text) : Prop :=
  ∃ taken, s = taken ++ rest ∧ oddAfter odd taken = false

namespace Clear

variable {odd : Bool} {s rest rest' : Text} {c : Char}

theorem refl (s : Text) : Clear false s s := ⟨[], rfl, rfl⟩

/-- Reading on twice leaves a rest that is not escaped when the second reading does. -/
theorem trans (h : Clear odd s rest) (h' : Clear false rest rest') : Clear odd s rest' := by
  obtain ⟨taken, rfl, htaken⟩ := h
  obtain ⟨taken', rfl, htaken'⟩ := h'
  refine ⟨taken ++ taken', (List.append_assoc ..).symm, ?_⟩
  rw [oddAfter, List.foldl_append]
  rw [oddAfter] at htaken htaken'
  rw [htaken, htaken']

/-- One more character in front: it decides whether the next one is escaped. -/
theorem cons (h : Clear (c = '\\' && !odd) s rest) : Clear odd (c :: s) rest := by
  obtain ⟨taken, rfl, htaken⟩ := h
  exact ⟨c :: taken, rfl, htaken⟩

/-- Another character before the rest leaves it unescaped. -/
theorem of_suffix (h : c :: rest <:+ s) (hc : c ≠ '\\') : Clear odd s rest := by
  obtain ⟨before, rfl⟩ := h
  refine ⟨before ++ [c], by simp, ?_⟩
  rw [oddAfter, List.foldl_append]
  simp [hc]

/-- What is left over is the end of the text. -/
theorem suffix (h : Clear odd s rest) : rest <:+ s := by
  obtain ⟨taken, rfl, -⟩ := h
  exact List.suffix_append ..

end Clear

variable {x : Bool} {s rest : Text}

/-! ## Gaps -/

/-- A gap that does not end the text ends in a blank or a line feed. -/
theorem clear_skipGap {comment odd : Bool} (hodd : comment = false → odd = false) (s : Text) :
    skipGap comment s = [] ∨ Clear odd s (skipGap comment s) := by
  -- in a comment a backslash may come before another one, so the count of them is generalized
  induction s generalizing comment odd with
  | nil => exact .inl (by cases comment <;> rfl)
  | cons c s ih =>
    have hskip {comment' : Bool} (hc : comment' = false → c ≠ '\\') :
        skipGap comment' s = [] ∨ Clear odd (c :: s) (skipGap comment' s) := by
      have hrest : skipGap comment' s = [] ∨
          Clear (c = '\\' && !odd) s (skipGap comment' s) := by
        apply ih
        intro hcomment
        simp [hc hcomment]
      exact hrest.imp_right Clear.cons
    cases comment with
    | true =>
      -- only a line feed ends a comment
      refine hskip fun hc => ?_
      rintro rfl
      cases hc
    | false =>
      obtain rfl := hodd rfl
      rw [skipGap]
      split
      · next hblank =>
        refine hskip fun _ => ?_
        rintro rfl
        revert hblank
        decide
      · split
        · next hhash => exact hskip (by simp)
        · exact .inr (.refl _)

/-- A gap ends before something that is not escaped, if it does not end the text. -/
theorem clear_gap (x : Bool) (s : Text) : gap x s = [] ∨ Clear false s (gap x s) := by
  cases x with
  | false => exact .inr (.refl s)
  | true => exact clear_skipGap (fun _ => rfl) s

/-- There is a gap in extended mode only, and a blank or a comment begins it. -/
theorem gap_cases (x : Bool) (s : Text) :
    gap x s = s ∨ x = true ∧ ∃ c t, s = c :: t ∧ (isBlank c = true ∨ c = '#') := by
  cases x with
  | false => exact .inl rfl
  | true =>
    cases s with
    | nil => exact .inl rfl
    | cons c t =>
      rw [gap, if_pos rfl, skipGap]
      by_cases hc : isBlank c = true ∨ c = '#'
      · exact .inr ⟨rfl, c, t, rfl, hc⟩
      · obtain ⟨hblank, hhash⟩ := not_or.1 hc
        rw [if_neg hblank, if_neg hhash]
        exact .inl rfl

/-! ## Items that span several characters -/

/-- Digits end in a digit, which is no backslash. -/
theorem hexDigits_ends {n : Nat} {digits : Text} (h : hexDigits x n s = some (digits, rest)) :
    n = 0 ∧ rest = s ∨ ∃ c, c ≠ '\\' ∧ c :: rest <:+ s := by
  induction n generalizing s digits with
  | zero =>
    cases h
    exact .inl ⟨rfl, rfl⟩
  | succ n ih =>
    rw [hexDigits] at h
    have hgap := gap_suffix x s
    split at h
    · cases h
    · next c t hs =>
      rw [hs] at hgap
      split at h
      · next hc =>
        obtain ⟨⟨ds, r⟩, hds, he⟩ := Option.map_eq_some_iff.1 h
        cases he
        right
        rcases ih hds with ⟨-, rfl⟩ | ⟨d, hd, hsuffix⟩
        · refine ⟨c, ?_, hgap⟩
          rintro rfl
          revert hc
          decide
        · exact ⟨d, hd, hsuffix.trans ((List.suffix_cons c t).trans hgap)⟩
      · cases h

/-- A run between two characters, as in braces, ends in the second one. -/
theorem clear_enclosed {p : Char → Bool} {odd : Bool} {c d : Char} {t run : Text}
    (hopen : gap x s = c :: t) (hrun : spaced x p (gap x t) = (run, d :: rest)) (hd : d ≠ '\\') :
    Clear odd s rest := by
  have hgap := gap_suffix x s
  have hspaced := spaced_suffix x p (gap x t)
  rw [hopen] at hgap
  rw [hrun] at hspaced
  exact .of_suffix
    (hspaced.trans ((gap_suffix x t).trans ((List.suffix_cons c t).trans hgap))) hd

/-- A numeric escape ends in a digit or a brace. -/
theorem clear_hexEscape {n : Nat} {odd : Bool} {e : Escape}
    (h : hexEscape x (n + 1) s = .ok (e, rest)) : Clear odd s rest := by
  rw [hexEscape] at h
  split at h
  · next t hs =>
    split at h
    · next hsp =>
      split at h
      · cases h
        exact clear_enclosed hs hsp (by decide)
      · cases h
    · cases h
  · split at h
    · cases h
    · next hdigits =>
      obtain ⟨c, hc, hsuffix⟩ := (hexDigits_ends hdigits).resolve_left (by simp)
      split at h
      · cases h
        exact .of_suffix (hsuffix.trans (gap_suffix x s)) hc
      · cases h

/-- A property ends in a brace or a letter. -/
theorem clear_property {odd negated : Bool} {e : Escape}
    (h : property x negated s = .ok (e, rest)) : Clear odd s rest := by
  rw [property] at h
  split at h
  · cases h
  · next t hs =>
    split at h
    · next hsp =>
      cases h
      exact clear_enclosed hs hsp (by decide)
    · cases h
  · next c r _ hs =>
    have hgap := gap_suffix x s
    rw [hs] at hgap
    split at h
    · next halpha =>
      cases h
      refine .of_suffix hgap ?_
      rintro rfl
      revert halpha
      decide
    · cases h

/-- After an escaping backslash the first character is taken, whichever it is. -/
theorem Clear.escaped (c : Char) (s : Text) : Clear true (c :: s) s :=
  .cons (by simpa using Clear.refl s)

/-- A boundary ends in its own letter or in a brace. -/
theorem clear_boundary {e : Escape} (c : Char) (h : boundary x s = .ok (e, rest)) :
    Clear true (c :: s) rest := by
  unfold boundary at h
  -- with a brace behind it the kind of boundary is read, without one nothing more is
  split at h
  · next t =>
    have hgap := gap_suffix x t
    split at h
    · cases h
    · next d u hu =>
      rw [hu] at hgap
      split at h
      · have hspaced := spaced_suffix x (fun c => c.isAlpha || c = '-') (d :: u)
        split at h
        · next hsp =>
          rw [hsp] at hspaced
          split at h
          · cases h
            have hbrace : '\x7d' :: rest <:+ t := hspaced.trans hgap
            refine .of_suffix (hbrace.trans ?_) (by decide)
            exact (List.suffix_cons _ t).trans (List.suffix_cons c _)
          · cases h
        · cases h
      · cases h
        exact .escaped c _
  · cases h
    exact .escaped c _

/-- An escape takes the backslash that may stand after its own. -/
theorem clear_escape {e : Escape} (h : escape x s = .ok (e, rest)) : Clear true s rest := by
  cases s with
  | nil => cases h
  | cons c s =>
    simp only [escape] at h
    split at h
    · cases h
    · split at h
      · cases h
        exact .escaped c _
      · split at h
        all_goals first
          | exact .cons (clear_hexEscape h)
          | exact .cons (clear_property h)
          | exact clear_boundary _ h
          | (cases h; exact .escaped _ _)
          | cases h

/-- A caret in front of a class and the gaps around it are taken from the front. -/
theorem classCaret_suffix (x : Bool) (s : Text) : (classCaret x s).2 <:+ s := by
  rw [classCaret]
  have hgap := gap_suffix x s
  split
  · next t ht =>
    rw [ht] at hgap
    exact (gap_suffix x t).trans ((List.suffix_cons _ t).trans hgap)
  · exact hgap

/-- A named class is taken from the front. -/
theorem namedClass?_suffix {item : ClassSyntax} (h : namedClass? s = some (item, rest)) :
    rest <:+ s := by
  unfold namedClass? at h
  split at h
  · next t =>
    split at h
    next u hu =>
    have hut : u <:+ t := by
      split at hu <;> cases hu
      · exact List.suffix_cons _ _
      · exact List.suffix_rfl
    split at h
    · next hd =>
      have hsuffix := List.dropWhile_suffix (· ≠ ':') (l := u)
      rw [hd] at hsuffix
      split at h
      · cases h
        have hrest : rest <:+ u :=
          ((List.suffix_cons _ _).trans (List.suffix_cons _ _)).trans hsuffix
        exact hrest.trans (hut.trans (List.suffix_cons _ t))
      · cases h
    · cases h
  · cases h

/-- A member of a class is taken from the front. -/
theorem classAtom_suffix {e : Escape} (h : classAtom x s = .ok (e, rest)) : rest <:+ s := by
  unfold classAtom at h
  split at h
  · cases h
  · exact (clear_escape h).suffix.trans (List.suffix_cons _ _)
  · cases h
    exact List.suffix_cons _ _

/-- An item of a class is taken from the front. -/
theorem classItem_suffix {item : ClassSyntax} (h : classItem x s = .ok (item, rest)) :
    rest <:+ s := by
  obtain ⟨first, v, hfirst, h⟩ := classItem_eq_ok.1 h
  have hv := (gap_suffix x v).trans (classAtom_suffix hfirst)
  rcases h with ⟨u, hu, -, -, rfl⟩ | ⟨u, lo, hi, b, b', hu, -, -, hlast, -, -⟩ | ⟨-, -, -, rfl⟩
  · rwa [hu] at hv
  · rw [hu] at hv
    have hlast' := (classAtom_suffix hlast).trans (gap_suffix x u)
    exact hlast'.trans ((List.suffix_cons _ u).trans hv)
  · exact hv

/-- A class ends in a bracket. -/
theorem classRest_ends {level : ClassLevel} {around : List ClassLevel} {e : Syntax}
    (h : classRest x level around s = .ok (e, rest)) :
    (∃ negated body, e = .bracket negated body) ∧ ']' :: rest <:+ s := by
  fun_induction classRest x level around s with
  | case1 => cases h
  | case2 level around s t hs item u hn ih =>
    obtain ⟨hclass, hrest⟩ := ih h
    have hgap := gap_suffix x s
    rw [hs] at hgap
    exact ⟨hclass, hrest.trans ((namedClass?_suffix hn).trans ((List.suffix_cons _ t).trans hgap))⟩
  | case3 level around s t hs hn ih =>
    obtain ⟨hclass, hrest⟩ := ih h
    have hgap := gap_suffix x s
    rw [hs] at hgap
    -- a class inside is read behind its head
    have hhead : (classHead x t).2 <:+ t :=
      (classHead_suffix.trans (spaced_suffix ..)).trans (classCaret_suffix x t)
    exact ⟨hclass, hrest.trans (hhead.trans ((List.suffix_cons _ t).trans hgap))⟩
  | case4 level s t hs =>
    cases h
    refine ⟨⟨_, _, rfl⟩, ?_⟩
    rw [← hs]
    exact gap_suffix x s
  | case5 level s t hs outer around ih =>
    obtain ⟨hclass, hrest⟩ := ih h
    have hgap := gap_suffix x s
    rw [hs] at hgap
    exact ⟨hclass, hrest.trans ((List.suffix_cons _ t).trans hgap)⟩
  | case6 level around s t hs ih | case7 level around s t hs ih | case8 level around s t hs ih =>
    obtain ⟨hclass, hrest⟩ := ih h
    have hgap := gap_suffix x s
    rw [hs] at hgap
    exact ⟨hclass, hrest.trans (((List.suffix_cons _ _).trans (List.suffix_cons _ _)).trans hgap)⟩
  | case9 => cases h
  | case10 level around s c t _ _ _ _ _ hs item u hi ih =>
    obtain ⟨hclass, hrest⟩ := ih h
    have hgap := gap_suffix x s
    rw [hs] at hgap
    exact ⟨hclass, hrest.trans ((classItem_suffix hi).trans hgap)⟩

/-- What brackets enclose is a class, and ends in a bracket. -/
theorem charClass_ends {e : Syntax} (h : charClass x s = .ok (e, rest)) :
    (∃ negated body, e = .bracket negated body) ∧ ']' :: rest <:+ s := by
  obtain ⟨hclass, hrest⟩ := classRest_ends h
  have hhead : (classHead x s).2 <:+ s :=
    (classHead_suffix.trans (spaced_suffix ..)).trans (classCaret_suffix x s)
  exact ⟨hclass, hrest.trans hhead⟩

/-- The bounds of a repetition end in a brace. -/
theorem countBounds_ends {lo : Nat} {hi : Option Nat} (h : countBounds x s = .ok (lo, hi, rest)) :
    '\x7d' :: rest <:+ s := by
  obtain ⟨⟨least, t⟩, hleast, h⟩ := bind_eq_ok.1 h
  have ht := (countNumber_suffix hleast).trans (gap_suffix x s)
  -- after the first bound a comma or the brace that closes the count
  simp only at h
  split at h
  · next u =>
    have hu := (gap_suffix x u).trans ((List.suffix_cons _ u).trans ht)
    split at h
    · next hgap =>
      rw [hgap] at hu
      cases h
      exact hu
    · obtain ⟨⟨greatest, v⟩, hgreatest, h⟩ := bind_eq_ok.1 h
      have hv := (countNumber_suffix hgreatest).trans hu
      split at h
      · next heq =>
        cases heq
        split at h
        · cases h
          exact hv
        · cases h
      · cases h
  · cases h
    exact ht
  · cases h

/-- Only the question mark that makes a repetition lazy is taken. -/
theorem clear_laziness (s : Text) : Clear false s (laziness s).2 := by
  unfold laziness
  split
  · exact .of_suffix List.suffix_rfl (by decide)
  · exact .refl s

/-- A text is cut right behind the character. -/
theorem suffix_of_cut? {c : Char} {before : Text} (h : Text.cut? c s = some (before, rest)) :
    c :: rest <:+ s := by
  induction s generalizing before with
  | nil => cases h
  | cons d s ih =>
    rw [Text.cut?] at h
    split at h
    · next hd =>
      cases h
      exact hd ▸ List.suffix_rfl
    · obtain ⟨⟨b, a⟩, hb, he⟩ := Option.map_eq_some_iff.1 h
      cases he
      exact (ih hb).trans (List.suffix_cons d s)

/-- The name of a group ends in an angle bracket. -/
theorem groupName_ends {g : GroupHead} (h : groupName s = .ok (g, rest)) : '>' :: rest <:+ s := by
  rw [groupName] at h
  split at h
  · cases h
  · next hcut =>
    split at h
    · cases h
      exact suffix_of_cut? hcut
    · cases h

/-- What follows `(?` and is no name is a list of flags. -/
theorem groupFlags_ends {g : GroupHead} (h : groupFlags s = .ok (g, rest)) :
    ∃ c ∈ [':', ')'], c :: rest <:+ s := by
  rw [groupFlags] at h
  have hd := List.dropWhile_suffix (fun c => c ≠ ':' && c ≠ ')') (l := s)
  split at h
  · next hs =>
    rw [hs] at hd
    obtain ⟨change, -, h⟩ := bind_eq_ok.1 h
    cases h
    exact ⟨':', by simp, hd⟩
  · next hs =>
    rw [hs] at hd
    split at h
    · cases h
    · obtain ⟨change, -, h⟩ := bind_eq_ok.1 h
      cases h
      exact ⟨')', by simp, hd⟩
  · cases h

/-- The head of a group ends in an angle bracket, a colon or a parenthesis, or in the gap behind the
parenthesis that opens it. -/
theorem clear_groupHead {g : GroupHead} (h : groupHead x s = .ok (g, rest)) :
    rest = [] ∨ Clear false s rest := by
  cases hs : gap x s with
  | nil =>
    rw [groupHead, hs] at h
    cases h
    exact .inl rfl
  | cons c v =>
    have hv : c :: v <:+ s := hs ▸ gap_suffix x s
    by_cases hc : c = '?'
    · subst hc
      right
      rcases groupHead_cases hs with ⟨w, rfl, hname⟩ | ⟨w, rfl, -, hname⟩ | hlook | ⟨-, -, hflags⟩
      · rw [hname] at h
        refine .of_suffix ((groupName_ends h).trans (.trans ?_ hv)) (by decide)
        exact ⟨"?P<".toList, rfl⟩
      · rw [hname] at h
        refine .of_suffix ((groupName_ends h).trans (.trans ?_ hv)) (by decide)
        exact ⟨"?<".toList, rfl⟩
      -- looking ahead or behind is refused, so no text is left over
      · have herror := hlook []
        rw [List.append_nil, h] at herror
        cases herror
      · rw [hflags] at h
        obtain ⟨d, hd, hrest⟩ := groupFlags_ends h
        refine .of_suffix (hrest.trans ((List.suffix_cons _ v).trans hv)) ?_
        rintro rfl
        revert hd
        decide
    · rw [groupHead_plain hs hc] at h
      cases h
      have hclear := clear_gap x s
      rw [hs] at hclear
      exact .inr (hclear.resolve_left (List.cons_ne_nil c v))

/-! ## Items -/

/-- After an item the rest is not escaped, if there is one. -/
theorem clear_action {c : Char} {a : Action} (h : action x c s = .ok (a, rest)) :
    rest = [] ∨ Clear (c = '\\') s rest := by
  unfold action at h
  split at h
  · obtain ⟨⟨g, r⟩, hhead, h⟩ := bind_eq_ok.1 h
    cases h
    exact clear_groupHead hhead
  · cases h
    exact .inr (.refl s)
  · cases h
    exact .inr (.refl s)
  · obtain ⟨⟨e, r⟩, hclass, h⟩ := bind_eq_ok.1 h
    cases h
    exact .inr (.of_suffix (charClass_ends hclass).2 (by decide))
  · cases h
    exact .inr (clear_laziness s)
  · cases h
    exact .inr (clear_laziness s)
  · cases h
    exact .inr (clear_laziness s)
  · -- a gap may follow the bounds, before the question mark
    obtain ⟨⟨lo, hi, r⟩, hcount, h⟩ := bind_eq_ok.1 h
    cases h
    have hr : Clear false s r := .of_suffix (countBounds_ends hcount) (by decide)
    rcases clear_gap x r with hgap | hgap
    · simp only [hgap]
      exact .inl rfl
    · exact .inr ((hr.trans hgap).trans (clear_laziness _))
  · obtain ⟨⟨e, r⟩, hescape, h⟩ := bind_eq_ok.1 h
    cases h
    exact .inr (clear_escape hescape)
  · cases h
    exact .inr (.refl s)
  · cases h
    exact .inr (.refl s)
  · cases h
    exact .inr (.refl s)
  · next hbackslash _ _ _ =>
    cases h
    rw [decide_eq_false hbackslash]
    exact .inr (.refl s)

/-- Reading an item leaves no more text than there was. -/
theorem length_of_action {c : Char} {a : Action} (h : action x c s = .ok (a, rest)) :
    rest.length ≤ s.length := by
  rcases clear_action h with rfl | hclear
  · exact Nat.zero_le _
  · exact hclear.suffix.length_le

end Routing.Regex.Reader
