import Routing.Proofs.Regex.Ends
import Routing.Proofs.Regex.Marks

/-!
# The items of a text

The items of a text are listed with the text from each on, so that what an item does can be compared
with the characters that it begins with.

* `Reader.Item`, `Reader.items` — the items of a text
* `Reader.clear_items` — no backslash escapes the beginning of an item
* `Reader.marks_items` — the marks of the tree are those of the items
* `Reader.dense_items` — extended mode stays off when no item switches it on
* `Reader.marks_action` — how marks are spelled
-/

namespace Routing.Regex.Reader

variable {x : Bool} {s rest : Text}

/-! ## Items -/

/-- An item of a text. -/
structure Item where
  /-- Whether extended mode is on. -/
  extended : Bool
  /-- The text from the item on. -/
  text : Text
  /-- What the item does. -/
  action : Action
  /-- The text after it. -/
  rest : Text

/-- The items of a text, up to the first that cannot be read. -/
def items (st : State) (s : Text) : List Item :=
  match _hs : gap st.extended s with
  | [] => []
  | c :: t =>
    match _ha : action st.extended c t with
    | .error _ => []
    | .ok (a, rest) =>
      ⟨st.extended, c :: t, a, rest⟩ ::
        match st.act a with
        | .error _ => []
        | .ok st' => items st' rest
termination_by s.length
decreasing_by
  have hgap := length_gap_le st.extended s
  rw [_hs] at hgap
  exact Nat.lt_of_lt_of_le (Nat.lt_succ_of_le (length_of_action _ha)) hgap

/-- The empty text has no items. -/
@[simp] theorem items_nil (st : State) : items st [] = [] := by
  rw [items]
  split
  · rfl
  · next hs =>
    rw [gap_nil] at hs
    cases hs

/-- No backslash escapes the beginning of an item, and that is where the item is read. -/
theorem clear_items {st : State} {it : Item} (h : it ∈ items st s) :
    Clear false s it.text ∧
      ∃ c t, it.text = c :: t ∧ Reader.action it.extended c t = .ok (it.action, it.rest) := by
  fun_induction items st s with
  | case1 => cases h
  | case2 => cases h
  | case3 st s c t hs a rest ha ih =>
    have hfirst : Clear false s (c :: t) := by
      rw [← hs]
      exact (clear_gap _ s).resolve_left (hs ▸ List.cons_ne_nil c t)
    rcases List.mem_cons.1 h with rfl | h
    · exact ⟨hfirst, c, t, rfl, ha⟩
    · split at h
      · cases h
      · next st' hact =>
        obtain ⟨hclear, haction⟩ := ih st' h
        -- the other items begin in the rest, which is not escaped
        rcases clear_action ha with rfl | hrest
        · rw [items_nil] at h
          cases h
        · have htaken : Clear false (c :: t) rest := .cons (by simpa using hrest)
          exact ⟨hfirst.trans (htaken.trans hclear), haction⟩

/-- The marks of what has been read are those of the items, in order. -/
theorem marks_items {st st' : State} (h : run st s = .ok st') :
    st'.marks = st.marks ++ (items st s).flatMap fun it => it.action.marks := by
  fun_induction items st s with
  | case1 st s hs =>
    rw [run_of_gap_nil hs] at h
    cases h
    simp
  | case2 st s c t hs f ha =>
    rw [run_of_gap_cons hs, step_eq_error ha] at h
    cases h
  | case3 st s c t hs a rest ha ih =>
    rw [run_of_gap_cons hs] at h
    obtain ⟨⟨st₁, r⟩, hstep, hrun⟩ := bind_eq_ok.1 h
    obtain ⟨a', ha', hact⟩ := step_eq_ok.1 hstep
    cases ha.symm.trans ha'
    -- the first item adds its marks, the others theirs
    rw [ih st₁ hrun, marks_act hact, hact]
    simp

/-! ## Extended mode -/

/-- Extended mode is off, and was off around every group that is open. -/
structure State.Dense (st : State) : Prop where
  here : st.extended = false
  around : ∀ scope ∈ st.scopes, scope.extended = false

theorem apply_of_not_mem {change : FlagChange} {flag : Flag} (h : flag ∉ change.on) :
    change.apply flag false = false := by
  rw [FlagChange.apply, if_neg h]
  simp

/-- An item that does not switch extended mode on leaves it off. -/
theorem dense_act {st st' : State} {a : Action} (h : st.act a = .ok st') (hst : st.Dense)
    (ha : ∀ m ∈ a.marks, m.switchesOn .extended = false) : st'.Dense := by
  obtain ⟨hhere, haround⟩ := hst
  -- extended mode stays off here, and closing a group goes back to where it was off
  have hchange {change : FlagChange} (hmem : .change change ∈ a.marks) :
      change.apply .extended st.extended = false := by
    have hoff := ha _ hmem
    rw [hhere]
    exact apply_of_not_mem (by simpa [Mark.switchesOn] using hoff)
  cases a with
  | group head =>
    cases head with
    | flags change =>
      cases h
      exact ⟨hchange (by simp [Action.marks]), haround⟩
    | opened kind =>
      obtain ⟨-, rfl⟩ := State.openGroup_eq_ok.1 h
      refine ⟨?_, List.forall_mem_cons.2 ⟨hhere, haround⟩⟩
      cases kind with
      | plain | named => exact hhere
      | flagged change => exact hchange (by simp [Action.marks, GroupKind.marks])
  | close =>
    obtain ⟨scope, outer, hscopes, rfl⟩ := State.closeGroup_eq_ok.1 h
    rw [hscopes] at haround
    obtain ⟨hscope, houter⟩ := List.forall_mem_cons.1 haround
    exact ⟨hscope, houter⟩
  | branch =>
    cases h
    exact ⟨hhere, haround⟩
  | push item =>
    cases h
    exact ⟨hhere, haround⟩
  | times lo hi greedy =>
    obtain ⟨item, items, -, -, rfl⟩ := State.repeatLast_eq_ok.1 h
    exact ⟨hhere, haround⟩

/-- Extended mode stays off in a text none of whose items switches it on. -/
theorem dense_items {st : State} (hst : st.Dense)
    (hoff : ∀ it ∈ items st s, ∀ m ∈ it.action.marks, m.switchesOn .extended = false) :
    ∀ it ∈ items st s, it.extended = false := by
  fun_induction items st s with
  | case1 => simp
  | case2 => simp
  | case3 st s c t hs a rest ha ih =>
    obtain ⟨hfirst, hothers⟩ := List.forall_mem_cons.1 hoff
    refine List.forall_mem_cons.2 ⟨hst.here, ?_⟩
    -- what the first item does is done, and the others are read in the state after it
    split at hothers
    · simp
    · next st' hact => exact ih st' (dense_act hact hst hfirst) hothers

/-! ## Spelling -/

/-- How an assertion about lines or the text is written. -/
def Anchor.spelling? : Anchor → Option Text
  | .lineStart => some ['^']
  | .lineEnd => some ['$']
  | .textStart => some ['\\', 'A']
  | .textEnd => some ['\\', 'z']
  | _ => none

/-- A numeric escape is a character. -/
theorem hexEscape_char {n : Nat} {e : Escape} (h : hexEscape x n s = .ok (e, rest)) :
    ∃ c byte, e = .char c byte := by
  rw [hexEscape] at h
  split at h
  · split at h
    · split at h
      · cases h
        exact ⟨_, _, rfl⟩
      · cases h
    · cases h
  · split at h
    · cases h
    · split at h
      · cases h
        exact ⟨_, _, rfl⟩
      · cases h

/-- What is read as a property is one. -/
theorem property_property {negated : Bool} {e : Escape}
    (h : property x negated s = .ok (e, rest)) : ∃ p, e = .property p negated := by
  rw [property] at h
  split at h
  · cases h
  · split at h
    · cases h
      exact ⟨_, rfl⟩
    · cases h
  · split at h
    · cases h
      exact ⟨_, rfl⟩
    · cases h

/-- No boundary that has a name is about lines or the text. -/
theorem unspelled_of_name {name : Text} {kind : Anchor} (h : Anchor.ofName? name = some kind) :
    Anchor.spelling? kind = none := by
  unfold Anchor.ofName? at h
  repeat' split at h
  all_goals first
    | (cases h; rfl)
    | cases h

/-- A boundary between words is not about lines or the text. -/
theorem unspelled_of_boundary {kind : Anchor} (h : boundary x s = .ok (.anchor kind, rest)) :
    Anchor.spelling? kind = none := by
  unfold boundary at h
  split at h
  · split at h
    · cases h
    · split at h
      · split at h
        · split at h
          · next hname =>
            cases h
            exact unspelled_of_name hname
          · cases h
        · cases h
      · cases h
        rfl
  · cases h
    rfl

/-- An assertion about the text that is escaped is read where it is spelled. -/
theorem spelling_of_escape {kind : Anchor} {w : Text}
    (h : escape x s = .ok (.anchor kind, rest)) (hw : Anchor.spelling? kind = some w) :
    '\\' :: s = w ++ rest := by
  have hhex {n : Nat} {t : Text} : hexEscape x n t ≠ .ok (.anchor kind, rest) := by
    intro hhex
    obtain ⟨c, byte, he⟩ := hexEscape_char hhex
    cases he
  have hproperty {negated : Bool} {t : Text} :
      property x negated t ≠ .ok (.anchor kind, rest) := by
    intro hproperty
    obtain ⟨p, he⟩ := property_property hproperty
    cases he
  have hboundary {t : Text} : boundary x t ≠ .ok (.anchor kind, rest) := by
    intro hboundary
    rw [unspelled_of_boundary hboundary] at hw
    cases hw
  cases s with
  | nil => cases h
  | cons c s =>
    simp only [escape] at h
    split at h
    · cases h
    · split at h
      · cases h
      · split at h
        all_goals first
          | exact absurd h hhex
          | exact absurd h hproperty
          | exact absurd h hboundary
          | (cases h; cases hw; rfl)
          | (cases h; cases hw)
          | cases h

/-- A change of flags is a list of letters after a question mark. -/
theorem flagChange_of_groupHead {g : GroupHead} {change : FlagChange}
    (h : groupHead x s = .ok (g, rest)) (hchange : .change change ∈ (Action.group g).marks) :
    ∃ u, gap x s = '?' :: u ∧
      flagChange? (u.takeWhile fun c => c ≠ ':' && c ≠ ')') = .ok change := by
  -- a group with a name changes no flags
  have hname {u : Text} : groupName u ≠ .ok (g, rest) := by
    intro hname
    rw [groupName] at hname
    split at hname
    · cases hname
    · split at hname
      · cases hname
        simp [Action.marks, GroupKind.marks] at hchange
      · cases hname
  rw [groupHead] at h
  split at h
  · exact absurd h hname
  · cases h
  · cases h
  · cases h
  · cases h
  · exact absurd h hname
  · next hs =>
    refine ⟨_, hs, ?_⟩
    rw [groupFlags] at h
    split at h
    · obtain ⟨change', hletters, h⟩ := bind_eq_ok.1 h
      cases h
      obtain rfl : change = change' := by simpa [Action.marks, GroupKind.marks] using hchange
      exact hletters
    · split at h
      · cases h
      · obtain ⟨change', hletters, h⟩ := bind_eq_ok.1 h
        cases h
        obtain rfl : change = change' := by simpa [Action.marks] using hchange
        exact hletters
    · cases h
  · cases h
    simp [Action.marks, GroupKind.marks] at hchange

/-- What an item marks, if anything: an assertion, which stands where it is spelled; or a change of
flags, which follows a parenthesis and, in extended mode, a gap. -/
theorem marks_action {c : Char} {a : Action} (h : action x c s = .ok (a, rest)) :
    (∀ kind w, .anchor kind ∈ a.marks → Anchor.spelling? kind = some w → c :: s = w ++ rest) ∧
      ∀ change, .change change ∈ a.marks → c = '(' ∧ ∃ u, gap x s = '?' :: u ∧
        flagChange? (u.takeWhile fun c => c ≠ ':' && c ≠ ')') = .ok change := by
  unfold action at h
  split at h
  · obtain ⟨⟨g, r⟩, hhead, h⟩ := bind_eq_ok.1 h
    cases h
    refine ⟨?_, fun change hchange => ⟨rfl, flagChange_of_groupHead hhead hchange⟩⟩
    intro kind w hkind
    cases g with
    | flags change => simp [Action.marks] at hkind
    | opened k => cases k <;> simp [Action.marks, GroupKind.marks] at hkind
  · cases h
    simp [Action.marks]
  · cases h
    simp [Action.marks]
  · obtain ⟨⟨e, r⟩, hclass, h⟩ := bind_eq_ok.1 h
    cases h
    obtain ⟨⟨negated, body, rfl⟩, -⟩ := charClass_ends hclass
    simp [Action.marks, Syntax.marks]
  · cases h
    simp [Action.marks]
  · cases h
    simp [Action.marks]
  · cases h
    simp [Action.marks]
  · obtain ⟨⟨lo, hi, r⟩, -, h⟩ := bind_eq_ok.1 h
    cases h
    simp [Action.marks]
  · obtain ⟨⟨e, r⟩, hescape, h⟩ := bind_eq_ok.1 h
    cases h
    cases e with
    | char | short | property => simp [Action.marks, Escape.item, Syntax.marks]
    | anchor k =>
      refine ⟨?_, by simp [Action.marks, Escape.item, Syntax.marks]⟩
      intro kind w hkind hw
      obtain rfl : kind = k := by simpa [Action.marks, Escape.item, Syntax.marks] using hkind
      exact spelling_of_escape hescape hw
  · cases h
    simp [Action.marks, Syntax.marks]
  · cases h
    refine ⟨?_, by simp [Action.marks, Syntax.marks]⟩
    intro kind w hkind hw
    obtain rfl : kind = .lineStart := by simpa [Action.marks, Syntax.marks] using hkind
    cases hw
    rfl
  · cases h
    refine ⟨?_, by simp [Action.marks, Syntax.marks]⟩
    intro kind w hkind hw
    obtain rfl : kind = .lineEnd := by simpa [Action.marks, Syntax.marks] using hkind
    cases hw
    rfl
  · cases h
    simp [Action.marks, Syntax.marks]

/-- An anchor with a spelling of its own is spelled where it is read. -/
theorem text_of_anchor {st : State} {it : Item} {kind : Anchor} {w : Text} (h : it ∈ items st s)
    (hkind : .anchor kind ∈ it.action.marks) (hw : Anchor.spelling? kind = some w) :
    it.text = w ++ it.rest := by
  obtain ⟨-, c, t, htext, haction⟩ := clear_items h
  rw [htext]
  exact (marks_action haction).1 kind w hkind hw

end Routing.Regex.Reader
