import Routing.Proofs.Regex.Denotation
import Routing.Proofs.Regex.Extent

/-!
# Texts that read alone

A text that can be read by itself, closing every group that it opens and no other, is read in the
same way between the parentheses of a group, wherever that stands: the groups around it stay as they
are, and only the names that it binds must not be bound elsewhere.

* `Reader.action`, `Reader.State.act` — what an item is, and what it does
* `Reader.State.openGroup_eq_ok`, `Reader.State.closeGroup_eq_ok`, `Reader.State.repeatLast_eq_ok` —
  when it does not fail
* `Reader.action_append` — items before a closing parenthesis
* `Reader.State.over`, `Reader.act_of_over`, `Reader.act_over` — what items do inside other groups
* `Reader.run_over` — reading before a closing parenthesis, inside other groups
-/

namespace Routing.Regex

/-- The name that a group binds, if it has one. -/
def GroupKind.names : GroupKind → List Text
  | .named name => [name]
  | .plain | .flagged _ => []

/-- Only a named group binds a name, and only its own. -/
theorem GroupKind.mem_names {kind : GroupKind} {n : Text} : n ∈ kind.names ↔ kind = .named n := by
  cases kind <;> simp [names, eq_comm]

/-- A group has its own name and those in its body. -/
theorem Syntax.names_group (kind : GroupKind) (body : Syntax) :
    (Syntax.group kind body).names = kind.names ++ body.names := by
  cases kind <;> simp [names, GroupKind.names]

/-- Whether extended mode is on inside a group, where `x` tells whether it is on around it. -/
def GroupKind.extended (x : Bool) : GroupKind → Bool
  | .flagged change => change.apply .extended x
  | .plain | .named _ => x

namespace Reader

/-! ## Items and what they do -/

/-- What an item does to the reader. -/
inductive Action where
  | group (head : GroupHead)
  | close
  | branch
  | push (item : Syntax)
  | times (lo : Nat) (hi : Option Nat) (greedy : Bool)

/-- Reads what one item does, and gives the text after it. -/
def action (x : Bool) (c : Char) (s : Text) : Except Fault (Action × Text) :=
  match c with
  | '(' => do
    let (head, rest) ← groupHead x s
    return (.group head, rest)
  | ')' => .ok (.close, s)
  | '|' => .ok (.branch, s)
  | '[' => do
    let (item, rest) ← charClass x s
    return (.push item, rest)
  | '?' => .ok (.times 0 (some 1) (laziness s).1, (laziness s).2)
  | '*' => .ok (.times 0 none (laziness s).1, (laziness s).2)
  | '+' => .ok (.times 1 none (laziness s).1, (laziness s).2)
  | '\x7b' => do
    let (lo, hi, rest) ← countBounds x s
    return (.times lo hi (laziness (gap x rest)).1, (laziness (gap x rest)).2)
  | '\\' => do
    let (e, rest) ← escape x s
    return (.push e.item, rest)
  | '.' => .ok (.push .dot, s)
  | '^' => .ok (.push (.anchor .lineStart), s)
  | '$' => .ok (.push (.anchor .lineEnd), s)
  | c => .ok (.push (.char c false), s)

/-- The state after an item. -/
def State.act (st : State) : Action → Except Fault State
  | .group (.opened kind) => st.openGroup kind
  | .group (.flags change) => .ok (st.changeFlags change)
  | .close => st.closeGroup
  | .branch => .ok st.branch
  | .push item => .ok (st.push item)
  | .times lo hi greedy => st.repeatLast lo hi greedy

namespace State

/-- A group is opened when its name is new, and what stood before it waits in its scope. -/
theorem openGroup_eq_ok {st st' : State} {kind : GroupKind} :
    st.openGroup kind = .ok st' ↔
      (∀ n ∈ kind.names, n ∉ st.names) ∧
        st' = ⟨[], [], ⟨kind, st.items, st.branches, st.extended⟩ :: st.scopes,
          kind.extended st.extended, kind.names ++ st.names⟩ := by
  cases kind with
  | plain => simp [openGroup, GroupKind.names, GroupKind.extended, eq_comm]
  | flagged change => simp [openGroup, GroupKind.names, GroupKind.extended, eq_comm]
  | named name =>
    -- only a name can be refused
    by_cases hmem : name ∈ st.names
    · simp [openGroup, GroupKind.names, hmem]
    · simp [openGroup, GroupKind.names, GroupKind.extended, hmem, eq_comm]

/-- A group is closed when one is open, and becomes one item of what stood before it. -/
theorem closeGroup_eq_ok {st st' : State} :
    st.closeGroup = .ok st' ↔
      ∃ scope outer, st.scopes = scope :: outer ∧
        st' = ⟨.group scope.kind st.body :: scope.items, scope.branches, outer, scope.extended,
          st.names⟩ := by
  cases hscopes : st.scopes with
  | nil => simp [closeGroup, hscopes]
  | cons scope outer => simp [closeGroup, hscopes, eq_comm]

/-- The last item is repeated when there is one and it can be. -/
theorem repeatLast_eq_ok {st st' : State} {lo : Nat} {hi : Option Nat} {greedy : Bool} :
    st.repeatLast lo hi greedy = .ok st' ↔
      ∃ item items, st.items = item :: items ∧ item.isRepeatable ∧
        st' = { st with items := .times lo hi greedy item :: items } := by
  unfold repeatLast
  constructor
  · intro h
    split at h
    · next item items hitems =>
      split at h
      · next hrep =>
        cases h
        exact ⟨item, items, hitems, hrep, rfl⟩
      · cases h
    · cases h
  · rintro ⟨item, items, hitems, hrep, rfl⟩
    simp [hitems, hrep]

end State

/-- Reading an item is finding out what it does, and doing it. -/
theorem step_eq_bind (st : State) (c : Char) (s : Text) :
    step st c s = action st.extended c s >>= fun p => st.act p.1 >>= fun st' => .ok (st', p.2) := by
  unfold step action
  simp only
  split
  · cases groupHead st.extended s with
    | error f => rfl
    | ok p =>
      obtain ⟨g, r⟩ := p
      cases g <;> rfl
  · rfl
  · rfl
  · cases charClass st.extended s <;> rfl
  · rfl
  · rfl
  · rfl
  · cases countBounds st.extended s <;> rfl
  · cases escape st.extended s <;> rfl
  · rfl
  · rfl
  · rfl
  · simp_all
    rfl

/-- A step succeeds when an item is read and can be done. -/
theorem step_eq_ok {st st' : State} {c : Char} {s rest : Text} :
    step st c s = .ok (st', rest) ↔
      ∃ a, action st.extended c s = .ok (a, rest) ∧ st.act a = .ok st' := by
  rw [step_eq_bind]
  constructor
  · intro h
    obtain ⟨⟨a, r⟩, haction, h⟩ := bind_eq_ok.1 h
    obtain ⟨st₁, hact, h⟩ := bind_eq_ok.1 h
    cases h
    exact ⟨a, haction, hact⟩
  · intro ⟨a, haction, hact⟩
    exact bind_eq_ok.2 ⟨_, haction, bind_eq_ok.2 ⟨_, hact, rfl⟩⟩

/-- What cannot be read as an item stops reading. -/
theorem step_eq_error {st : State} {c : Char} {s : Text} {f : Fault}
    (h : action st.extended c s = .error f) : step st c s = .error f := by
  rw [step_eq_bind]
  exact bind_eq_error.2 (.inl h)

/-! ## Before a closing parenthesis -/

/-- An item before a parenthesis is the same, unless a comment at its end takes the parenthesis
in. -/
theorem action_append {x : Bool} {c : Char} {s rest : Text} {a : Action}
    (h : action x c s = .ok (a, rest)) :
    (∀ u, action x c (s ++ ')' :: u) = .ok (a, rest ++ ')' :: u)) ∨
      rest = [] ∧ ∀ u, '\n' ∉ u → action x c (s ++ u) = .ok (a, []) := by
  unfold action at h ⊢
  split at h
  · obtain ⟨⟨g, r⟩, hhead, h⟩ := bind_eq_ok.1 h
    cases h
    rcases groupHead_append hhead with happend | ⟨rfl, hhang⟩
    · exact .inl fun u => bind_eq_ok.2 ⟨_, happend u, rfl⟩
    · exact .inr ⟨rfl, fun u hu => bind_eq_ok.2 ⟨_, hhang u hu, rfl⟩⟩
  · cases h
    exact .inl fun u => rfl
  · cases h
    exact .inl fun u => rfl
  · obtain ⟨⟨item, r⟩, hclass, h⟩ := bind_eq_ok.1 h
    cases h
    exact .inl fun u => bind_eq_ok.2 ⟨_, charClass_append hclass u, rfl⟩
  · cases h
    exact .inl fun u => by rw [laziness_append _ _ (by decide)]
  · cases h
    exact .inl fun u => by rw [laziness_append _ _ (by decide)]
  · cases h
    exact .inl fun u => by rw [laziness_append _ _ (by decide)]
  · obtain ⟨⟨lo, hi, r⟩, hcount, h⟩ := bind_eq_ok.1 h
    cases h
    -- a gap behind the count may end the text, in a comment or not
    by_cases hgap : gap x r = []
    · simp only [hgap]
      rcases gap_close hgap with hclose | hhang
      · left
        intro u
        refine bind_eq_ok.2 ⟨_, countBounds_append hcount _, ?_⟩
        simp only [hclose]
        rfl
      · refine .inr ⟨rfl, fun u hu => bind_eq_ok.2 ⟨_, countBounds_append hcount u, ?_⟩⟩
        simp only [hhang u hu]
        rfl
    · left
      intro u
      refine bind_eq_ok.2 ⟨_, countBounds_append hcount _, ?_⟩
      simp only [gap_append hgap, laziness_append _ _ (show ')' ≠ '?' by decide)]
      rfl
  · obtain ⟨⟨e, r⟩, hescape, h⟩ := bind_eq_ok.1 h
    cases h
    exact .inl fun u => bind_eq_ok.2 ⟨_, escape_append hescape u, rfl⟩
  all_goals
    cases h
    exact .inl fun u => rfl

/-! ## Inside other groups -/

/-- The state with more groups around it, and names bound outside. -/
def State.over (st : State) (scopes : List Scope) (names : List Text) : State :=
  { st with scopes := st.scopes ++ scopes, names := st.names ++ names }

/-- What an item did inside other groups it does without them, unless it closed one of them. -/
theorem act_of_over {st st'' : State} {a : Action} {scopes : List Scope} {names : List Text}
    (h : (st.over scopes names).act a = .ok st'') :
    (∃ st', st.act a = .ok st' ∧ st'' = st'.over scopes names) ∨ a = .close ∧ st.scopes = [] := by
  cases a with
  | group head =>
    cases head with
    | flags change =>
      cases h
      exact .inl ⟨_, rfl, rfl⟩
    | opened kind =>
      obtain ⟨hnew, rfl⟩ := State.openGroup_eq_ok.1 h
      have hnew' (n : Text) (hn : n ∈ kind.names) : n ∉ st.names :=
        fun hmem => hnew n hn (List.mem_append_left _ hmem)
      refine .inl ⟨_, State.openGroup_eq_ok.2 ⟨hnew', rfl⟩, ?_⟩
      simp [State.over]
  | close =>
    -- without a group of its own the text closes one of those around it
    cases hscopes : st.scopes with
    | nil => exact .inr ⟨rfl, rfl⟩
    | cons scope outer =>
      obtain ⟨_, _, hcons, rfl⟩ := State.closeGroup_eq_ok.1 h
      rw [State.over, hscopes] at hcons
      cases hcons
      exact .inl ⟨_, State.closeGroup_eq_ok.2 ⟨scope, outer, hscopes, rfl⟩, rfl⟩
  | branch =>
    cases h
    exact .inl ⟨_, rfl, rfl⟩
  | push item =>
    cases h
    exact .inl ⟨_, rfl, rfl⟩
  | times lo hi greedy =>
    obtain ⟨item, items, hitems, hrep, rfl⟩ := State.repeatLast_eq_ok.1 h
    exact .inl ⟨_, State.repeatLast_eq_ok.2 ⟨item, items, hitems, hrep, rfl⟩, rfl⟩

/-- Opening a named group records its name, which must be new; nothing else does. -/
theorem names_act {st st' : State} {a : Action} (h : st.act a = .ok st') :
    st'.names = st.names ∨ ∃ name, name ∉ st.names ∧ st'.names = name :: st.names := by
  cases a with
  | group head =>
    cases head with
    | flags change =>
      cases h
      exact .inl rfl
    | opened kind =>
      obtain ⟨hnew, rfl⟩ := State.openGroup_eq_ok.1 h
      cases kind with
      | plain | flagged => exact .inl rfl
      | named name => exact .inr ⟨name, hnew name (GroupKind.mem_names.2 rfl), rfl⟩
  | close =>
    obtain ⟨scope, outer, -, rfl⟩ := State.closeGroup_eq_ok.1 h
    exact .inl rfl
  | branch | push =>
    cases h
    exact .inl rfl
  | times lo hi greedy =>
    obtain ⟨item, items, -, -, rfl⟩ := State.repeatLast_eq_ok.1 h
    exact .inl rfl

/-- What an item does inside other groups: it only must not bind a name that they bind. -/
theorem act_over {st st' st'' : State} {a : Action} {scopes : List Scope} {names : List Text}
    (h : st.act a = .ok st') (hover : (st.over scopes names).act a = .ok st'')
    (hnew : ∀ n ∈ st.names, n ∉ names) :
    st'' = st'.over scopes names ∧ ∀ n ∈ st'.names, n ∉ names := by
  rcases act_of_over hover with ⟨st₁, hact, rfl⟩ | ⟨rfl, hscopes⟩
  · cases hact.symm.trans h
    refine ⟨rfl, ?_⟩
    -- the name that is opened was new among all names, so it is among those around
    rcases names_act hover with hnames | ⟨name, hname, hnames⟩
    · have hsame : st'.names = st.names := List.append_cancel_right hnames
      rwa [hsame]
    · have hmore : st'.names = name :: st.names :=
        List.append_cancel_right (hnames.trans (List.cons_append ..).symm)
      have hname' : name ∉ names := fun hmem => hname (List.mem_append_right _ hmem)
      rw [hmore]
      exact List.forall_mem_cons.2 ⟨hname', hnew⟩
  · rw [State.act, State.closeGroup, hscopes] at h
    cases h

/-- No name is bound twice. -/
theorem nodup_act {st st' : State} {a : Action} (h : st.act a = .ok st') (hnodup : st.names.Nodup) :
    st'.names.Nodup := by
  rcases names_act h with hnames | ⟨name, hname, hnames⟩
  · rwa [hnames]
  · rw [hnames]
    exact List.nodup_cons.2 ⟨hname, hnodup⟩

/-! ## Whole texts -/

/-- Reading binds no name twice. -/
theorem nodup_run {st st' : State} {s : Text} (h : run st s = .ok st') (hnodup : st.names.Nodup) :
    st'.names.Nodup := by
  fun_induction run st s with
  | case1 =>
    cases h
    exact hnodup
  | case2 => cases h
  | case3 st s c t hs st₁ rest hstep ih =>
    obtain ⟨a, -, hact⟩ := step_eq_ok.1 hstep
    exact ih h (nodup_act hact hnodup)

/-- A text that reads by itself, read before a closing parenthesis and inside other groups: it only
must not bind a name that they bind, unless a comment at its end takes the parenthesis in. -/
theorem run_over {st st' : State} {s : Text} (h : run st s = .ok st') :
    (∀ scopes names u st'', run (st.over scopes names) (s ++ ')' :: u) = .ok st'' →
      (∀ n ∈ st.names, n ∉ names) →
        (∀ n ∈ st'.names, n ∉ names) ∧ run (st'.over scopes names) (')' :: u) = .ok st'') ∨
      ∀ scopes names u st'', '\n' ∉ u →
        run (st.over scopes names) (s ++ ')' :: u) = .ok st'' →
          (∀ n ∈ st.names, n ∉ names) → st'' = st'.over scopes names := by
  fun_induction run st s with
  | case1 st s hs =>
    obtain rfl := Except.ok.inj h
    -- at the end of the text the parenthesis is next, unless a comment takes it in
    rcases gap_close hs with hclose | hhang
    · left
      intro scopes names u st'' hrun hnew
      refine ⟨hnew, ?_⟩
      have hgap : gap (st.over scopes names).extended (s ++ ')' :: u) = ')' :: u := hclose u
      have hgap' : gap (st.over scopes names).extended (')' :: u) = ')' :: u := gap_paren _ u
      rw [run_of_gap_cons hgap] at hrun
      rwa [run_of_gap_cons hgap']
    · right
      intro scopes names u st'' hu hrun hnew
      have hgap : gap (st.over scopes names).extended (s ++ ')' :: u) = [] :=
        hhang (')' :: u) (by simpa using hu)
      rw [run_of_gap_nil hgap] at hrun
      exact (Except.ok.inj hrun).symm
  | case2 => cases h
  | case3 st s c t hs st₁ rest hstep ih =>
    obtain ⟨a, haction, hact⟩ := step_eq_ok.1 hstep
    -- the item is the same with more text after it, and does the same inside other groups
    have hfirst (scopes : List Scope) (names : List Text) (u st'' : _)
        (hrun : run (st.over scopes names) (s ++ u) = .ok st'') (hnew : ∀ n ∈ st.names, n ∉ names)
        (rest' : Text) (hrest : action st.extended c (t ++ u) = .ok (a, rest')) :
        (∀ n ∈ st₁.names, n ∉ names) ∧ run (st₁.over scopes names) rest' = .ok st'' := by
      have hgap : gap (st.over scopes names).extended (s ++ u) = c :: (t ++ u) :=
        gap_append_cons hs u
      rw [run_of_gap_cons hgap] at hrun
      obtain ⟨⟨st₂, r⟩, hstep', hrun⟩ := bind_eq_ok.1 hrun
      obtain ⟨a', haction', hact'⟩ := step_eq_ok.1 hstep'
      cases hrest.symm.trans haction'
      obtain ⟨rfl, hnew'⟩ := act_over hact hact' hnew
      exact ⟨hnew', hrun⟩
    rcases action_append haction with happend | ⟨rfl, hhang⟩
    · rcases ih h with hread | hcomment
      · left
        intro scopes names u st'' hrun hnew
        obtain ⟨hnew, hrun⟩ := hfirst scopes names _ st'' hrun hnew _ (happend u)
        exact hread scopes names u st'' hrun hnew
      · right
        intro scopes names u st'' hu hrun hnew
        obtain ⟨hnew, hrun⟩ := hfirst scopes names _ st'' hrun hnew _ (happend u)
        exact hcomment scopes names u st'' hu hrun hnew
    · right
      intro scopes names u st'' hu hrun hnew
      obtain ⟨hnew, hrun⟩ :=
        hfirst scopes names _ st'' hrun hnew _ (hhang (')' :: u) (by simpa using hu))
      rw [run_of_gap_nil (gap_nil _)] at h hrun
      cases h
      exact (Except.ok.inj hrun).symm

/-! ## Names -/

/-- The names of all groups that are in the reader have been recorded. -/
structure State.Recorded (st : State) : Prop where
  items : ∀ n ∈ Syntax.allNames st.items, n ∈ st.names
  branches : ∀ n ∈ Syntax.allNames st.branches, n ∈ st.names
  scopes : ∀ scope ∈ st.scopes,
    (∀ n ∈ Syntax.allNames scope.items, n ∈ st.names) ∧
      (∀ n ∈ Syntax.allNames scope.branches, n ∈ st.names) ∧
        ∀ n, scope.kind = .named n → n ∈ st.names

theorem recorded_start (x : Bool) : ({ State.start with extended := x } : State).Recorded where
  items := by simp [State.start, Syntax.allNames]
  branches := by simp [State.start, Syntax.allNames]
  scopes := by simp [State.start]

/-- What is read in a group has its names behind the last bar or before it. -/
theorem mem_names_body {st : State} {n : Text} (h : n ∈ st.body.names) :
    n ∈ Syntax.allNames st.items ∨ n ∈ Syntax.allNames st.branches := by
  rw [State.body, Syntax.names_ofBranches, Syntax.mem_allNames] at h
  obtain ⟨item, hitem, hn⟩ := h
  rcases List.mem_cons.1 (List.mem_reverse.1 hitem) with rfl | hitem
  · rw [Syntax.names_ofItems, Syntax.mem_allNames] at hn
    obtain ⟨item, hitem, hn⟩ := hn
    exact .inl (Syntax.mem_allNames.2 ⟨item, List.mem_reverse.1 hitem, hn⟩)
  · exact .inr (Syntax.mem_allNames.2 ⟨item, hitem, hn⟩)

/-- The names of what is read in the innermost group have been recorded. -/
theorem State.Recorded.body {st : State} (h : st.Recorded) : ∀ n ∈ st.body.names, n ∈ st.names :=
  fun n hn => (mem_names_body hn).elim (h.items n) (h.branches n)

/-- An item leaves the names of all groups recorded, if what it pushes has none of its own. -/
theorem recorded_act {st st' : State} {a : Action} (h : st.act a = .ok st') (hst : st.Recorded)
    (ha : ∀ item, a = .push item → item.names = []) : st'.Recorded := by
  obtain ⟨hitems, hbranches, hscopes⟩ := hst
  cases a with
  | group head =>
    cases head with
    | flags change =>
      cases h
      exact ⟨hitems, hbranches, hscopes⟩
    | opened kind =>
      obtain ⟨-, rfl⟩ := State.openGroup_eq_ok.1 h
      have hkept (n : Text) (hn : n ∈ st.names) : n ∈ kind.names ++ st.names :=
        List.mem_append_right _ hn
      refine ⟨by simp [Syntax.allNames], by simp [Syntax.allNames],
        List.forall_mem_cons.2 ⟨⟨?_, ?_, ?_⟩, ?_⟩⟩
      · exact fun n hn => hkept n (hitems n hn)
      · exact fun n hn => hkept n (hbranches n hn)
      · exact fun n hn => List.mem_append_left _ (GroupKind.mem_names.2 hn)
      · intro scope hscope
        obtain ⟨h₁, h₂, h₃⟩ := hscopes scope hscope
        exact ⟨fun n hn => hkept n (h₁ n hn), fun n hn => hkept n (h₂ n hn),
          fun n hn => hkept n (h₃ n hn)⟩
  | close =>
    have hbody := State.Recorded.body ⟨hitems, hbranches, hscopes⟩
    obtain ⟨scope, outer, hs, rfl⟩ := State.closeGroup_eq_ok.1 h
    rw [hs] at hscopes
    obtain ⟨⟨h₁, h₂, h₃⟩, houter⟩ := List.forall_mem_cons.1 hscopes
    refine ⟨?_, h₂, houter⟩
    rw [Syntax.allNames, Syntax.names_group, List.forall_mem_append, List.forall_mem_append]
    exact ⟨⟨fun n hn => h₃ n (GroupKind.mem_names.1 hn), hbody⟩, h₁⟩
  | branch =>
    cases h
    refine ⟨by simp [State.branch, Syntax.allNames], ?_, hscopes⟩
    intro n hn
    rw [State.branch, Syntax.allNames, List.mem_append, Syntax.names_ofItems,
      Syntax.mem_allNames] at hn
    rcases hn with ⟨item, hitem, hn⟩ | hn
    · exact hitems n (Syntax.mem_allNames.2 ⟨item, List.mem_reverse.1 hitem, hn⟩)
    · exact hbranches n hn
  | push item =>
    cases h
    refine ⟨?_, hbranches, hscopes⟩
    rw [State.push, Syntax.allNames, ha item rfl]
    exact hitems
  | times lo hi greedy =>
    obtain ⟨item, items, hs, -, rfl⟩ := State.repeatLast_eq_ok.1 h
    rw [hs] at hitems
    exact ⟨hitems, hbranches, hscopes⟩

/-- A class has no groups in it. -/
theorem names_of_classRest {x : Bool} {level : ClassLevel} {around : List ClassLevel}
    {s rest : Text} {e : Syntax} (h : classRest x level around s = .ok (e, rest)) :
    e.names = [] := by
  fun_induction classRest x level around s with
  | case1 => cases h
  | case4 =>
    cases h
    rfl
  | case9 => cases h
  | case2 _ _ _ _ _ _ _ _ ih | case3 _ _ _ _ _ _ ih | case5 _ _ _ _ _ _ ih => exact ih h
  | case6 _ _ _ _ _ ih | case7 _ _ _ _ _ ih | case8 _ _ _ _ _ ih => exact ih h
  | case10 _ _ _ _ _ _ _ _ _ _ _ _ _ _ ih => exact ih h

/-- Only a parenthesis closes a group, and an item brings names into the reader only by opening
one. -/
theorem action_groups {x : Bool} {c : Char} {s rest : Text} {a : Action}
    (h : action x c s = .ok (a, rest)) :
    (a = .close → c = ')') ∧ ∀ item, a = .push item → item.names = [] := by
  unfold action at h
  split at h
  · obtain ⟨⟨g, r⟩, -, h⟩ := bind_eq_ok.1 h
    cases h
    simp
  · cases h
    simp
  · cases h
    simp
  · obtain ⟨⟨e, r⟩, hclass, h⟩ := bind_eq_ok.1 h
    cases h
    simpa using names_of_classRest hclass
  · cases h
    simp
  · cases h
    simp
  · cases h
    simp
  · obtain ⟨⟨lo, hi, r⟩, -, h⟩ := bind_eq_ok.1 h
    cases h
    simp
  · obtain ⟨⟨e, r⟩, -, h⟩ := bind_eq_ok.1 h
    cases h
    cases e <;> simp [Escape.item, Syntax.names]
  all_goals
    cases h
    simp [Syntax.names]

/-- All names that are read have been recorded in the end. -/
theorem recorded_run {st st' : State} {s : Text} (h : run st s = .ok st') (hst : st.Recorded) :
    st'.Recorded := by
  fun_induction run st s with
  | case1 =>
    cases h
    exact hst
  | case2 => cases h
  | case3 st s c t hs st₁ rest hstep ih =>
    obtain ⟨a, haction, hact⟩ := step_eq_ok.1 hstep
    apply ih h
    apply recorded_act hact hst
    exact (action_groups haction).2

/-! ## Groups -/

/-- A text that reads by itself, between the parentheses of a group. -/
theorem reads_group {start w : Text} {x : Bool} {change : FlagChange} {st : State}
    (hopen : ∀ (st : State) (s : Text), st.extended = false →
      run st (start ++ s) = run { Reads.inside st (.flagged change) [] with extended := x } s)
    (halone : run { State.start with extended := x } w = .ok st) (hscopes : st.scopes = [])
    {st₀ st₁ : State} {u : Text} (hx : st₀.extended = false) (hu : '\n' ∉ u)
    (hrun : run st₀ (start ++ w ++ ')' :: u) = .ok st₁) (hclosed : st₁.scopes = []) :
    Reads (start ++ w ++ [')']) [.group (.flagged change) st.body] st.names.reverse := by
  have hinside (st : State) :
      ({ Reads.inside st (.flagged change) [] with extended := x } : State) =
        ({ State.start with extended := x } : State).over
          (⟨.flagged change, st.items, st.branches, st.extended⟩ :: st.scopes) st.names := rfl
  rcases run_over halone with hread | hcomment
  · intro st₂ st₃ hx s _ hrun
    rw [List.append_assoc, List.append_assoc, hopen _ _ hx, hinside] at hrun
    obtain ⟨hnew, hrun⟩ := hread _ _ _ _ hrun (by simp [State.start])
    have hnodup : st.names.Nodup := nodup_run halone List.nodup_nil
    refine ⟨List.pairwise_reverse.2 (hnodup.imp Ne.symm),
      fun n hn => hnew n (List.mem_reverse.1 hn), ?_⟩
    rw [run_of_gap_cons (gap_paren _ _)] at hrun
    obtain ⟨⟨st₄, r⟩, hstep, hrun⟩ := bind_eq_ok.1 hrun
    -- what the text leaves in the reader is the body of the group that the parenthesis closes
    have hclose : step (st.over (⟨.flagged change, st₂.items, st₂.branches, st₂.extended⟩ ::
        st₂.scopes) st₂.names) ')' s =
          .ok (st₂.add [.group (.flagged change) st.body] st.names.reverse, s) := by
      simp [step, State.closeGroup, State.over, State.add, State.body, hscopes, bind, Except.bind,
        pure, Except.pure]
    cases hclose.symm.trans hstep
    exact hrun
  · -- a comment that takes the parenthesis in leaves the group open
    rw [List.append_assoc, hopen _ _ hx, hinside] at hrun
    have hst₁ := hcomment _ _ u _ hu hrun (by simp [State.start])
    rw [hst₁, State.over, hscopes] at hclosed
    cases hclosed

end Reader

end Routing.Regex
