import Routing.Proofs.Regex.Closed

/-!
# Assertions and flag changes

Nothing that is written between the items of an expression gets lost on the way into its tree: the
assertions and the flag changes of the tree are those of the items, in the order of the text.

* `Mark` — an assertion or a flag change
* `Syntax.marks` — those of an expression, in order
* `Reader.Action.marks`, `Reader.State.marks` — those of an item and of what has been read
* `Reader.marks_act` — an item adds its own
-/

namespace Routing.Regex

/-- An assertion, or a change of flags by a group or a flag item. -/
inductive Mark where
  | anchor (kind : Anchor)
  | change (change : FlagChange)
deriving DecidableEq

namespace Mark

/-- It asserts that a line or the text starts here. -/
def isStart : Mark → Bool
  | anchor kind => kind = .lineStart ∨ kind = .textStart
  | change _ => false

/-- It asserts that a line or the text ends here. -/
def isEnd : Mark → Bool
  | anchor kind => kind = .lineEnd ∨ kind = .textEnd
  | change _ => false

/-- It switches a flag on. -/
def switchesOn (flag : Flag) : Mark → Bool
  | anchor _ => false
  | change c => flag ∈ c.on

end Mark

/-- What a group changes. -/
def GroupKind.marks : GroupKind → List Mark
  | .plain | .named _ => []
  | .flagged change => [.change change]

mutual

/-- The assertions and the flag changes of an expression, in order. -/
def Syntax.marks : Syntax → List Mark
  | .anchor kind => [.anchor kind]
  | .flags change => [.change change]
  | .group kind body => kind.marks ++ body.marks
  | .times _ _ _ body => body.marks
  | .seq items => Syntax.allMarks items
  | .alt branches => Syntax.allMarks branches
  | .empty | .char _ _ | .dot | .short _ _ | .property _ _ | .bracket _ _ => []

/-- The assertions and the flag changes of several expressions. -/
def Syntax.allMarks : List Syntax → List Mark
  | [] => []
  | item :: items => item.marks ++ Syntax.allMarks items

end

namespace Syntax

@[simp] theorem allMarks_nil : allMarks [] = [] := by rw [allMarks]

@[simp] theorem allMarks_cons (item : Syntax) (items : List Syntax) :
    allMarks (item :: items) = item.marks ++ allMarks items := by rw [allMarks]

/-- The marks of items one behind the other come one behind the other. -/
@[simp] theorem allMarks_append (items items' : List Syntax) :
    allMarks (items ++ items') = allMarks items ++ allMarks items' := by
  induction items with
  | nil => simp
  | cons item items ih => simp [ih]

/-- Putting items together to a sequence keeps their marks. -/
@[simp] theorem marks_ofItems (items : List Syntax) : (ofItems items).marks = allMarks items := by
  match items with
  | [] => simp [ofItems, marks]
  | [item] => simp [ofItems]
  | item :: item' :: items => simp [ofItems, marks]

/-- Putting branches together to a choice keeps their marks. -/
@[simp] theorem marks_ofBranches (branches : List Syntax) :
    (ofBranches branches).marks = allMarks branches := by
  match branches with
  | [] => simp [ofBranches, marks]
  | [branch] => simp [ofBranches]
  | branch :: branch' :: branches => simp [ofBranches, marks]

end Syntax

namespace Reader

/-! ## In the reader -/

/-- What an item marks. -/
def Action.marks : Action → List Mark
  | .group (.opened kind) => kind.marks
  | .group (.flags change) => [.change change]
  | .push item => item.marks
  | .close | .branch | .times _ _ _ => []

/-- What stands before a group that is open, and what the group changes. -/
def Scope.marks (scope : Scope) : List Mark :=
  Syntax.allMarks scope.branches.reverse ++ Syntax.allMarks scope.items.reverse ++ scope.kind.marks

/-- What has been read, from the outermost group in. -/
def State.marks (st : State) : List Mark :=
  st.scopes.reverse.flatMap Scope.marks ++ st.body.marks

/-- The marks of the innermost group are those of its branches and of the items behind the last bar.
-/
theorem State.marks_body (st : State) :
    st.body.marks = Syntax.allMarks st.branches.reverse ++ Syntax.allMarks st.items.reverse := by
  simp [State.body]

/-- An item adds what it marks to what has been read. -/
theorem marks_act {st st' : State} {a : Action} (h : st.act a = .ok st') :
    st'.marks = st.marks ++ a.marks := by
  rw [State.marks, State.marks, State.marks_body, State.marks_body]
  cases a with
  | group head =>
    cases head with
    | flags change =>
      cases h
      simp [State.changeFlags, Action.marks, Syntax.marks]
    | opened kind =>
      obtain ⟨-, rfl⟩ := State.openGroup_eq_ok.1 h
      simp [Scope.marks, Action.marks]
  | close =>
    obtain ⟨scope, outer, hscopes, rfl⟩ := State.closeGroup_eq_ok.1 h
    rw [hscopes]
    -- the scope holds what stood before the group and what the group changes
    simp [Scope.marks, Action.marks, Syntax.marks, State.marks_body]
  | branch =>
    cases h
    simp [State.branch, Action.marks]
  | push item =>
    cases h
    simp [State.push, Action.marks]
  | times lo hi greedy =>
    obtain ⟨item, items, hitems, -, rfl⟩ := State.repeatLast_eq_ok.1 h
    rw [hitems]
    simp [Action.marks, Syntax.marks]

end Reader

end Routing.Regex
