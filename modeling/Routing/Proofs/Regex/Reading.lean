import Routing.Proofs.Steps
import Routing.Regex

/-!
# Reading texts that were put together

Reading goes from left to right, so what the beginning of a text adds to the reader is settled
before the rest is looked at: only a question mark could still belong to it. A text that adds
certain parts and group names wherever it stands can be put together with others, and enclosed in
groups.

* `Written` — a text adds parts and group names to the reader
* `Written.append`, `Written.named`, `Written.optional` — putting such texts together
* `Written.read` — what a whole text of this kind reads as
* `parseUnder` — the meaning of a whole text under options
-/

namespace Routing.Regex

/-! ## Classes -/

namespace Reader

/-- A plain item of a class. -/
theorem classRest_push {level : ClassLevel} {around : List ClassLevel} {c : Char} {s : Text}
    (item : ClassSyntax) (rest : Text) (h : classItem false (c :: s) = .ok (item, rest))
    (hc : c ∉ ['[', ']', '&', '-', '~']) :
    classRest false level around (c :: s) = classRest false (level.push item) around rest := by
  simp only [List.mem_cons, List.not_mem_nil, or_false, not_or] at hc
  obtain ⟨h₁, h₂, h₃, h₄, h₅⟩ := hc
  -- none of the characters that the reader looks for first stands here
  rw [classRest]
  split
  · next hs => cases hs
  · next hs => cases hs; contradiction
  · next hs => cases hs; contradiction
  · next hs => cases hs; contradiction
  · next hs => cases hs; contradiction
  · next hs => cases hs; contradiction
  · next hs =>
    cases hs
    split
    · next hi => rw [h] at hi; cases hi
    · next hi => rw [h] at hi; cases hi; rfl

/-- A bracket that stands at its end closes a class. -/
theorem classRest_close (level : ClassLevel) (s : Text) :
    classRest false level [] (']' :: s) = .ok (.bracket level.negated level.body, s) := by
  rw [classRest]
  split
  · next hs => cases hs
  · next hs => cases hs
  · next hs => cases hs; rfl
  · next hs => cases hs
  · next hs => cases hs
  · next hs => cases hs
  · next hs => cases hs; simp_all

/-! ## Reading on -/

/-- With nothing but blanks and comments left, reading is over. -/
theorem run_of_gap_nil {st : State} {s : Text} (h : gap st.extended s = []) :
    run st s = .ok st := by
  rw [run]
  split
  · rfl
  · next heq =>
    rw [h] at heq
    cases heq

/-- Blanks and comments passed over, reading takes one step at what comes next. -/
theorem run_of_gap_cons {st : State} {c : Char} {s t : Text} (h : gap st.extended s = c :: t) :
    run st s = step st c t >>= fun p => run p.1 p.2 := by
  rw [run]
  split
  · next heq =>
    rw [h] at heq
    cases heq
  · next heq =>
    rw [h] at heq
    cases heq
    split
    · next hstep =>
      rw [hstep]
      rfl
    · next hstep =>
      rw [hstep]
      rfl

/-- Outside extended mode nothing is passed over. -/
theorem gap_of_dense {st : State} (hx : st.extended = false) (s : Text) : gap st.extended s = s := by
  rw [hx]
  rfl

theorem run_cons {st : State} (hx : st.extended = false) (c : Char) (s : Text) :
    run st (c :: s) = (step st c s).bind fun p => run p.1 p.2 :=
  run_of_gap_cons (gap_of_dense hx (c :: s))

theorem run_nil {st : State} (hx : st.extended = false) : run st [] = .ok st :=
  run_of_gap_nil (gap_of_dense hx [])

/-- Before anything but a question mark, a repetition is greedy. -/
theorem laziness_of_head {s : Text} (hs : s.head? ≠ some '?') : laziness s = (true, s) := by
  unfold laziness
  split
  · simp at hs
  · rfl

/-- The head of a group that binds its text. -/
theorem groupHead_name {name : Text} (hname : isGroupName name = true) (hgt : '>' ∉ name)
    (s : Text) :
    groupHead false ('?' :: 'P' :: '<' :: (name ++ '>' :: s)) = .ok (.opened (.named name), s) := by
  have hcut : groupName (name ++ '>' :: s) = .ok (.opened (.named name), s) := by
    rw [groupName, Text.cut?_append hgt]
    simp [hname]
  simp [groupHead, gap, hcut]

/-- Behind the head of a group that only groups. -/
theorem run_flagged {st : State} (hx : st.extended = false) (s : Text) :
    run st ("(?:".toList ++ s) =
      run { st with
        items := []
        branches := []
        scopes := ⟨.flagged ⟨[], []⟩, st.items, st.branches, st.extended⟩ :: st.scopes } s := by
  have hopen : "(?:".toList ++ s = '(' :: '?' :: ':' :: s := by simp
  have hhead : groupHead st.extended ('?' :: ':' :: s) = .ok (.opened (.flagged ⟨[], []⟩), s) := by
    simp [groupHead, groupFlags, flagChange?, gap, hx, bind, Except.bind, pure, Except.pure]
  rw [hopen, run_cons hx]
  simp [step, hhead, State.openGroup, bind, Except.bind, pure, Except.pure, FlagChange.apply]

/-- The reader after more parts and group names. -/
def State.add (st : State) (items : List Syntax) (names : List Text) : State :=
  { st with items := items.reverse ++ st.items, names := names.reverse ++ st.names }

/-- Adding parts twice is adding them one behind the other. -/
theorem State.add_add (st : State) (items items' : List Syntax) (names names' : List Text) :
    (st.add items names).add items' names' = st.add (items ++ items') (names ++ names') := by
  simp [add]

end Reader

open Reader

/-! ## What a text adds -/

/-- Wherever it stands, before anything but a question mark, the text adds these parts and group
names. -/
def Written (w : Text) (items : List Syntax) (names : List Text) : Prop :=
  ∀ st : State, st.extended = false → names.Nodup → (∀ n ∈ names, n ∉ st.names) →
    ∀ s : Text, s.head? ≠ some '?' → run st (w ++ s) = run (st.add items names) s

namespace Written

variable {w w' : Text} {items items' : List Syntax} {names names' : List Text}

theorem nil : Written [] [] [] := fun _ _ _ _ _ _ => rfl

/-- What two texts add is added one behind the other, if their group names differ. -/
theorem append (h : Written w items names) (h' : Written w' items' names')
    (hw' : w'.head? ≠ some '?') : Written (w ++ w') (items ++ items') (names ++ names') := by
  intro st hx hnodup hnew s hs
  obtain ⟨hn, hn', hne⟩ := List.nodup_append.1 hnodup
  rw [List.forall_mem_append] at hnew
  -- what comes behind the first text is the second, or what comes behind both
  have hs' : (w' ++ s).head? ≠ some '?' := by
    cases w' with
    | nil => exact hs
    | cons c w' => exact hw'
  rw [List.append_assoc, h st hx hn hnew.1 _ hs', h' (st.add items names) hx hn' ?_ s hs,
    State.add_add]
  intro n hmem
  rw [State.add, List.mem_append, List.mem_reverse, not_or]
  exact ⟨fun hmem' => hne n hmem' n hmem rfl, hnew.2 n hmem⟩

/-- A text that is read as one item. -/
theorem of_step {c : Char} {item : Syntax}
    (h : ∀ st : State, st.extended = false → ∀ s : Text,
      step st c (w ++ s) = .ok (st.push item, s)) : Written (c :: w) [item] [] := by
  intro st hx _ _ s _
  rw [List.cons_append, run_cons hx, h st hx s]
  rfl

theorem lineStart : Written ['^'] [.anchor .lineStart] [] := of_step fun _ _ _ => rfl

theorem lineEnd : Written ['$'] [.anchor .lineEnd] [] := of_step fun _ _ _ => rfl

/-- A character without a meaning of its own adds itself. -/
theorem char {c : Char} (hc : isMeta c = false) : Written [c] [.char c false] [] := by
  refine of_step fun st _ s => ?_
  -- the reader looks for these characters, all of them with a meaning of their own
  have hne : ∀ d ∈ "()|[?*+\x7b\\.^$".toList, c ≠ d := by
    have hmeta : "()|[?*+\x7b\\.^$".toList.all isMeta = true := by decide
    rintro d hd rfl
    rw [List.all_eq_true.1 hmeta c hd] at hc
    cases hc
  simp only [step, List.nil_append]
  split <;> first | rfl | exact absurd rfl (hne _ (by decide))

/-- Behind a backslash, a character with a meaning of its own adds itself. -/
theorem escaped {c : Char} (hc : isMeta c = true) : Written ['\\', c] [.char c false] [] := by
  refine of_step fun st _ s => ?_
  have hplain : ("\\.+*?()|[]\x7b\x7d^$#&-~".toList.all fun d => !d.isDigit && isEscapable d) =
      true := by
    decide
  have hchar := List.all_eq_true.1 hplain c (List.contains_iff_mem.1 hc)
  rw [Bool.and_eq_true, Bool.not_eq_true'] at hchar
  obtain ⟨hd, he⟩ := hchar
  have hesc : escape st.extended (c :: s) = .ok (.char c false, s) := by simp [escape, hd, he]
  simp [step, hesc, bind, Except.bind, pure, Except.pure, Escape.item]

/-- A quoted text is read character by character. -/
theorem quoted (t : Text) : Written (quote t) (t.map (.char · false)) [] := by
  induction t with
  | nil => exact nil
  | cons c t ih =>
    -- a quoted text never begins with a question mark, which is escaped
    have hhead : (quote t).head? ≠ some '?' := by
      cases t with
      | nil => simp [quote]
      | cons d t =>
        by_cases hd : isMeta d = true
        · simp [quote, hd]
        · have : d ≠ '?' := by rintro rfl; exact hd rfl
          simp [quote, hd, this]
    by_cases hc : isMeta c = true
    · have := (escaped hc).append ih hhead
      simpa [quote, hc] using this
    · have := (char (Bool.eq_false_iff.2 hc)).append ih hhead
      simpa [quote, hc] using this

/-! ### Groups -/

/-- A body between parentheses, when the opening one begins a group. -/
theorem run_group {open_ : Text} {kind : GroupKind} {st st' : State} (h : Written w items names)
    (hnodup : names.Nodup) (hopen : ∀ s, run st (open_ ++ s) = run st' s)
    (hst' : st'.items = [] ∧ st'.branches = [] ∧ st'.extended = false ∧
      st'.scopes = ⟨kind, st.items, st.branches, st.extended⟩ :: st.scopes)
    (hnew : ∀ n ∈ names, n ∉ st'.names) (s : Text) :
    run st (open_ ++ w ++ ')' :: s) =
      run { st with
        items := .group kind (Syntax.ofItems items) :: st.items
        names := names.reverse ++ st'.names } s := by
  obtain ⟨hi, hb, hext, hsc⟩ := hst'
  rw [List.append_assoc, hopen, h st' hext hnodup hnew _ (by simp), run_cons (by exact hext)]
  -- at the parenthesis what was read inside becomes one item of what is around
  have hclose : step (st'.add items names) ')' s = .ok ({ st with
        items := .group kind (Syntax.ofItems items) :: st.items
        names := names.reverse ++ st'.names }, s) := by
    simp [step, State.closeGroup, State.add, hsc, hi, hb, State.body, Syntax.ofBranches, bind,
      Except.bind, pure, Except.pure]
  rw [hclose]
  rfl

/-- A group that binds its text. -/
theorem named {name : Text} (h : Written w items names) (hname : isGroupName name = true)
    (hgt : '>' ∉ name) :
    Written ("(?P<".toList ++ name ++ ['>'] ++ w ++ [')'])
      [.group (.named name) (Syntax.ofItems items)] (name :: names) := by
  intro st hx hnodup hnew s _
  obtain ⟨hn, hnodup⟩ := List.nodup_cons.1 hnodup
  obtain ⟨hst, hnew⟩ := List.forall_mem_cons.1 hnew
  have hopen (s : Text) : run st ("(?P<".toList ++ name ++ ['>'] ++ s) =
      run { st with
        items := []
        branches := []
        scopes := ⟨.named name, st.items, st.branches, st.extended⟩ :: st.scopes
        names := name :: st.names } s := by
    have hopen : "(?P<".toList ++ name ++ ['>'] ++ s =
        '(' :: '?' :: 'P' :: '<' :: (name ++ '>' :: s) := by simp
    rw [hopen, run_cons hx]
    simp [step, hx, groupHead_name hname hgt, State.openGroup, hst, bind, Except.bind, pure,
      Except.pure]
  have hnew' (n : Text) (hmem : n ∈ names) : n ∉ name :: st.names := by
    rw [List.mem_cons, not_or]
    exact ⟨fun h => hn (h ▸ hmem), hnew n hmem⟩
  have := run_group h hnodup hopen ⟨rfl, rfl, hx, rfl⟩ hnew' s
  simpa [State.add] using this

/-- A group that only groups, before whatever follows it. -/
theorem run_grouped (h : Written w items names) {st : State} (hx : st.extended = false)
    (hnodup : names.Nodup) (hnew : ∀ n ∈ names, n ∉ st.names) (s : Text) :
    run st ("(?:".toList ++ w ++ ')' :: s) =
      run (st.add [.group (.flagged ⟨[], []⟩) (Syntax.ofItems items)] names) s := by
  have := run_group h hnodup (run_flagged hx) ⟨rfl, rfl, hx, rfl⟩ hnew s
  simpa [State.add] using this

/-- A group that only groups adds itself as one part. -/
theorem grouped (h : Written w items names) :
    Written ("(?:".toList ++ w ++ [')'])
      [.group (.flagged ⟨[], []⟩) (Syntax.ofItems items)] names := by
  intro st hx hnodup hnew s _
  rw [List.append_assoc]
  exact run_grouped h hx hnodup hnew s

/-- A group that may be missing. -/
theorem optional (h : Written w items names) :
    Written ("(?:".toList ++ w ++ ")?".toList)
      [.times 0 (some 1) true (.group (.flagged ⟨[], []⟩) (Syntax.ofItems items))] names := by
  intro st hx hnodup hnew s hs
  rw [List.append_assoc]
  refine (run_grouped h hx hnodup hnew ('?' :: s)).trans ?_
  rw [run_cons (by exact hx)]
  -- what follows is no second question mark, so the repetition is a greedy one
  have hlazy := laziness_of_head hs
  simp [step, hlazy, State.repeatLast, State.add, Syntax.isRepeatable, bind, Except.bind, pure,
    Except.pure]

/-! ### Runs of characters -/

/-- One item and a plus sign after it. -/
theorem plus {c : Char} {item : Syntax} (hitem : item.isRepeatable = true)
    (h : ∀ st : State, st.extended = false → ∀ s : Text,
      step st c (w ++ s) = .ok (st.push item, s)) :
    Written (c :: w ++ ['+']) [.times 1 none true item] [] := by
  intro st hx _ _ s hs
  rw [List.append_assoc, List.cons_append, run_cons hx, h st hx]
  have hlazy := laziness_of_head hs
  have hx' : (st.push item).extended = false := hx
  have hstep : step (st.push item) '+' s = .ok (st.add [.times 1 none true item] [], s) := by
    simp [step, hlazy, State.repeatLast, State.push, State.add, hitem, bind, Except.bind, pure,
      Except.pure]
  refine (run_cons hx' '+' s).trans ?_
  rw [hstep]
  rfl

end Written

/-! ## Whole texts -/

/-- What a text reads as that adds these parts. -/
theorem Written.read {w : Text} {items : List Syntax} {names : List Text}
    (h : Written w items names) (hnodup : names.Nodup) :
    Syntax.read w =
      if (Syntax.ofItems items).depth ≤ Syntax.depthLimit then .ok (Syntax.ofItems items)
      else .error .nesting := by
  have hrun : run .start w = .ok (State.start.add items names) := by
    have := h .start rfl hnodup (by simp [State.start]) [] (by simp)
    rwa [List.append_nil, run_nil rfl] at this
  rw [Syntax.read, hrun]
  simp [State.finish, State.add, State.start, State.body, Syntax.ofBranches, bind, Except.bind,
    pure, Except.pure]

variable [Properties]

/-- The meaning of a text under options: case is ignored, or extended mode is on from its
beginning. -/
def parseUnder (ignoreCase extended : Bool) (s : Text) : Except Fault Expr := do
  let st ← run { State.start with extended } s
  let written ← st.finish
  if written.depth ≤ Syntax.depthLimit then
    let (e, _) ← written.meaning { ignoreCase }
    if e.fits then return e else .error .size
  else .error .nesting

section ParseUnder

variable {ignoreCase extended : Bool} {s : Text} {e : Expr}

/-- Without options this is how every text is parsed. -/
theorem parseUnder_none (s : Text) : parseUnder false false s = parse s := by
  have hstart : ({ State.start with extended := false } : State) = .start := rfl
  rw [parseUnder, parse, Syntax.read, hstart]
  cases run .start s with
  | error f => rfl
  | ok st =>
    cases hfinish : st.finish with
    | error f => simp [bind, Except.bind, hfinish]
    | ok written =>
      simp only [bind, Except.bind, hfinish]
      split <;> rfl

/-- An accepted text closes all groups that it opens, and what it reads as is neither too deep nor
too large. -/
theorem parseUnder_eq_ok :
    parseUnder ignoreCase extended s = .ok e ↔
      ∃ st f, run { State.start with extended } s = .ok st ∧ st.scopes = [] ∧
        st.body.depth ≤ Syntax.depthLimit ∧ st.body.meaning { ignoreCase } = .ok (e, f) ∧
          e.fits = true := by
  rw [parseUnder]
  constructor
  · intro h
    obtain ⟨st, hrun, h⟩ := bind_eq_ok.1 h
    obtain ⟨written, hfinish, h⟩ := bind_eq_ok.1 h
    rw [State.finish] at hfinish
    split at hfinish
    · next hscopes =>
      cases hfinish
      split at h
      · next hdepth =>
        obtain ⟨⟨e', f⟩, hmeaning, h⟩ := bind_eq_ok.1 h
        simp only at h
        split at h
        · next hfits =>
          cases h
          exact ⟨st, f, hrun, List.isEmpty_iff.1 hscopes, hdepth, hmeaning, hfits⟩
        · cases h
      · cases h
    · cases hfinish
  · intro ⟨st, f, hrun, hscopes, hdepth, hmeaning, hfits⟩
    have hfinish : st.finish = .ok st.body := by
      rw [State.finish, hscopes]
      rfl
    refine bind_eq_ok.2 ⟨st, hrun, bind_eq_ok.2 ⟨_, hfinish, ?_⟩⟩
    rw [if_pos hdepth]
    exact bind_eq_ok.2 ⟨_, hmeaning, if_pos hfits⟩

/-- Without options an accepted text is read and means something in the same way. -/
theorem parse_eq_ok :
    parse s = .ok e ↔
      ∃ st f, run .start s = .ok st ∧ st.scopes = [] ∧ st.body.depth ≤ Syntax.depthLimit ∧
        st.body.meaning {} = .ok (e, f) ∧ e.fits = true := by
  rw [← parseUnder_none]
  exact parseUnder_eq_ok

end ParseUnder

end Routing.Regex
