import Routing.Proofs.Regex.Denotation

/-!
# Texts that yield expressions

Which of several matches is preferred hangs on the expression itself, and not on its language alone.
A choice is that of its branches in order where one of them is too short to share a beginning with
the others, and a text that lists such branches spells it. When a text was read to its end, the
expressions of the texts that it was put together of can be told too.

* `Spells.oneOf` — a group of branches
* `Yields` — where a text is accepted, this part of it is these expressions
* `Yields.append`, `Yields.named`, `Yields.optional` — putting parts together
* `Yields.parse` — the expression of an accepted text
-/

namespace Routing.Regex

/-! ## Choices that are left alone -/

namespace Expr

/-- A sequence of parts that are no choices is one branch. -/
theorem branches_ofParts {es : List Expr} (h : ∀ e ∈ es, e.branches = [e]) :
    (ofParts es).branches = [ofParts es] := by
  match es with
  | [] => rfl
  | [e] => exact h e List.mem_cons_self
  | _ :: _ :: _ => rfl

/-- Branches of which one is a single part share no beginning. -/
theorem shared?_eq_none {es : List Expr} {e : Expr} (he : e ∈ es) (hpart : e.IsPart) :
    shared? es = none := by
  -- what a single part begins with is one block at most, too little to be shared
  have hblock : (blocks e.parts).length < 2 := by
    rw [hpart, blocks, blocks]
    cases e.code? <;> simp
  have hmem : blocks e.parts ∈ es.map fun b => blocks b.parts := List.mem_map_of_mem he
  rw [shared?]
  split
  · rfl
  · next first rest hblocks =>
    rw [hblocks, List.mem_cons] at hmem
    rw [if_pos]
    rcases hmem with hfirst | hrest
    · exact .inl (hfirst ▸ hblock)
    · exact .inr (List.any_eq_true.2 ⟨_, hrest, decide_eq_true hblock⟩)

/-- A choice is that of its branches in order when one of them is a single part and no set. -/
theorem choice_eq_ofBranches {es : List Expr} {e : Expr} (hes : ∀ e ∈ es, e.branches = [e])
    (he : e ∈ es) (hpart : e.IsPart) (hset : e.set? = none) : choice es = ofBranches es := by
  have hbranches : es.flatMap branches = es := by
    rw [List.flatMap_congr hes]
    simp
  -- a branch that is no set keeps the choice from becoming one
  have hsets : es.mapM set? = none := by
    cases hsets : es.mapM set? with
    | none => rfl
    | some sets =>
      rw [eq_map_set hsets] at he
      obtain ⟨s, -, rfl⟩ := List.mem_map.1 he
      cases hset
  rw [choice]
  cases (es.map nodes).foldl (· + ·) 1 with
  | zero => rfl
  | succ fuel =>
    rw [choiceOf, hbranches]
    split
    · rfl
    · rfl
    · rw [hsets, shared?_eq_none he hpart]

/-- A choice is one part, and a single branch is what it was. -/
theorem isPart_ofBranches {es : List Expr} {e : Expr} (he : e ∈ es) (hpart : e.IsPart) :
    (ofBranches es).IsPart := by
  match es with
  | [e'] =>
    rw [List.mem_singleton] at he
    exact he ▸ hpart
  | _ :: _ :: _ => rfl

end Expr

/-- Branches that mean expressions mean the choice of them, where that is left alone. -/
theorem Syntax.means_ofBranches [Properties] {bodies : List Syntax} {es : List Expr}
    (h : List.Forall₂ Means bodies es) (hchoice : Expr.choice es = .ofBranches es)
    (hne : bodies ≠ []) : (ofBranches bodies).Means (.ofBranches es) := by
  have hall := meanings_of_means h
  cases h with
  | nil => exact absurd rfl hne
  | cons h hs =>
    cases hs with
    | nil => exact h
    | cons =>
      rw [ofBranches, Means, Syntax.meaning, hall]
      · exact congrArg (fun e => Except.ok (e, _)) hchoice
      all_goals simp

/-! ## Spelling a choice -/

open Reader

namespace Written

/-- Branches between bars, read up to the parenthesis that closes their group. -/
theorem run_branches {bs : List (Text × List Syntax)} {b : Text × List Syntax}
    (h : ∀ b' ∈ b :: bs, Written b'.1 b'.2 []) {st : State} (hx : st.extended = false)
    (hst : st.items = []) (s : Text) :
    ∃ st₁ : State, st₁.scopes = st.scopes ∧ st₁.extended = false ∧ st₁.names = st.names ∧
      st₁.body = .ofBranches (st.branches.reverse ++ (b :: bs).map fun b => .ofItems b.2) ∧
      run st (['|'].intercalate ((b :: bs).map Prod.fst) ++ ')' :: s) = run st₁ (')' :: s) := by
  obtain ⟨hb, hbs⟩ := List.forall_mem_cons.1 h
  induction bs generalizing b st with
  | nil =>
    have hrun := hb st hx List.nodup_nil (by simp) (')' :: s) (by simp)
    refine ⟨st.add b.2 [], rfl, hx, rfl, ?_, ?_⟩
    · simp [State.body, State.add, hst]
    · rw [List.map_singleton, List.intercalate_singleton, hrun]
  | cons b' bs ih =>
    have htext : ['|'].intercalate ((b :: b' :: bs).map Prod.fst) ++ ')' :: s =
        b.1 ++ '|' :: (['|'].intercalate ((b' :: bs).map Prod.fst) ++ ')' :: s) := by
      simp [List.intercalate_cons_cons]
    obtain ⟨hb', hbs'⟩ := List.forall_mem_cons.1 hbs
    -- after the bar, the next branch starts without items
    have hbranch : (st.add b.2 []).branch.extended = false := hx
    obtain ⟨st₁, hscopes, hx₁, hnames, hbody, hrun⟩ := ih hbs hbranch rfl hb' hbs'
    refine ⟨st₁, hscopes, hx₁, hnames, ?_, ?_⟩
    · rw [hbody]
      simp [State.branch, State.add, hst]
    · rw [htext, hb st hx List.nodup_nil (by simp) _ (by simp), run_cons (by exact hx), ← hrun]
      rfl

/-- A group of branches. -/
theorem oneOf {bs : List (Text × List Syntax)} (hne : bs ≠ [])
    (h : ∀ b ∈ bs, Written b.1 b.2 []) :
    Written ("(?:".toList ++ ['|'].intercalate (bs.map Prod.fst) ++ [')'])
      [.group (.flagged ⟨[], []⟩) (.ofBranches (bs.map fun b => .ofItems b.2))] [] := by
  intro st hx _ _ s _
  -- the head of the group, the branches up to its parenthesis, and the parenthesis
  obtain ⟨b, bs, rfl⟩ := List.exists_cons_of_ne_nil hne
  have hinside : (Reads.inside st (.flagged ⟨[], []⟩) []).extended = false := hx
  obtain ⟨st₁, hscopes, hx₁, hnames, hbody, hrun⟩ := run_branches h hinside rfl s
  rw [List.append_assoc, List.append_assoc, Reads.run_flagged hx, List.singleton_append, hrun,
    run_cons hx₁, Reads.step_close (hscopes.trans rfl), hbody, hnames]
  rfl

end Written

namespace Spells

variable [Properties]

/-- What branches are read as that spell their expressions, none of them deeper than `limit`. -/
theorem written_branches {bs : List (Text × List Expr)} {limit : Nat}
    (h : ∀ b ∈ bs, ∃ depth ≤ limit, Spells b.1 b.2 [] depth) :
    ∃ rs : List (Text × List Syntax), rs.map Prod.fst = bs.map Prod.fst ∧
      (∀ b ∈ rs, Written b.1 b.2 []) ∧
      List.Forall₂ Syntax.Means (rs.map fun b => .ofItems b.2) (bs.map fun b => .ofParts b.2) ∧
      Syntax.depths (rs.map fun b => .ofItems b.2) ≤ limit + 1 := by
  induction bs with
  | nil => exact ⟨[], rfl, by simp, .nil, by simp [Syntax.depths]⟩
  | cons b bs ih =>
    obtain ⟨⟨depth, hdepth, items, hwritten, hmeans, hitems, hparts⟩, hbs⟩ :=
      List.forall_mem_cons.1 h
    obtain ⟨rs, htexts, hall, hmeanings, hdepths⟩ := ih hbs
    refine ⟨(b.1, items) :: rs, ?_, ?_, ?_, ?_⟩
    · rw [List.map_cons, htexts, List.map_cons]
    · exact List.forall_mem_cons.2 ⟨hwritten, hall⟩
    · exact .cons (Syntax.means_ofItems hmeans hparts) hmeanings
    · rw [List.map_cons, Syntax.depths, Syntax.depth_ofItems, hitems, Syntax.seqDepth]
      split <;> omega

/-- A group of branches, one of which is a single part and no set. -/
theorem oneOf {bs : List (Text × List Expr)} {limit : Nat}
    (h : ∀ b ∈ bs, ∃ depth ≤ limit, Spells b.1 b.2 [] depth)
    (hbranches : ∀ b ∈ bs, ∀ e ∈ b.2, e.branches = [e]) {w : Text} {e : Expr}
    (hmem : (w, [e]) ∈ bs) (hset : e.set? = none) :
    ∃ depth ≤ limit + 3, Spells ("(?:".toList ++ ['|'].intercalate (bs.map Prod.fst) ++ [')'])
      [.ofBranches (bs.map fun b => .ofParts b.2)] [] depth := by
  obtain ⟨rs, htexts, hwritten, hmeans, hdepths⟩ := written_branches h
  have hne : rs ≠ [] := by
    intro hnil
    rw [hnil, List.map_nil] at htexts
    rw [List.map_eq_nil_iff.1 htexts.symm] at hmem
    cases hmem
  have hpart : e.IsPart := by
    obtain ⟨_, -, _, -, -, -, hparts⟩ := h _ hmem
    exact hparts e List.mem_cons_self
  have he : e ∈ bs.map fun b => .ofParts b.2 := List.mem_map.2 ⟨_, hmem, rfl⟩
  have hchoice := Expr.choice_eq_ofBranches (List.forall_mem_map.2 fun b hb =>
    Expr.branches_ofParts (hbranches b hb)) he hpart hset
  have hbody := Syntax.means_ofBranches hmeans hchoice (by simpa using hne)
  refine ⟨_, ?_, htexts ▸ of_item (Written.oneOf hne hwritten) (Denotes.meaning_flagged hbody)
    (Expr.isPart_ofBranches he hpart)⟩
  generalize rs.map (fun b => Syntax.ofItems b.2) = bodies at hdepths ⊢
  rw [Syntax.depth, Syntax.ofBranches.eq_def]
  split
  · simp only [Syntax.depths] at hdepths
    omega
  · rw [Syntax.depth]
    omega

end Spells

/-! ## Yielding -/

/-- Where a text is accepted, this part of it is these expressions one after the other, and the
groups in it have these names. -/
def Yields [Properties] (w : Text) (es : List Expr) (names : List Text) : Prop :=
  ∃ items, Reads w items names ∧ List.Forall₂ Syntax.Means items es ∧ ∀ e ∈ es, e.IsPart

namespace Yields

variable [Properties] {w w' : Text} {es es' : List Expr} {names names' : List Text}

/-- A text that spells expressions yields them. -/
theorem of_spells {depth : Nat} (h : Spells w es [] depth) : Yields w es [] := by
  obtain ⟨items, hwritten, hmeans, -, hparts⟩ := h
  exact ⟨items, .of_written hwritten, hmeans, hparts⟩

/-- A text behind another yields what both yield. -/
theorem append (h : Yields w es names) (h' : Yields w' es' names') (hw' : w'.head? ≠ some '?') :
    Yields (w ++ w') (es ++ es') (names ++ names') := by
  obtain ⟨items, hreads, hmeans, hparts⟩ := h
  obtain ⟨items', hreads', hmeans', hparts'⟩ := h'
  exact ⟨items ++ items', hreads.append hreads' hw', List.rel_append hmeans hmeans',
    List.forall_mem_append.2 ⟨hparts, hparts'⟩⟩

/-- A group that binds its text. -/
theorem named {name : Text} (h : Yields w es names) (hname : Reader.isGroupName name = true)
    (hgt : '>' ∉ name) :
    Yields ("(?P<".toList ++ name ++ ['>'] ++ w ++ [')']) [.group (some name) (.ofParts es)]
      (name :: names) := by
  obtain ⟨items, hreads, hmeans, hparts⟩ := h
  have hbody := Syntax.means_ofItems hmeans hparts
  refine ⟨_, hreads.named hname hgt, .cons ?_ .nil, ?_⟩
  · rw [Syntax.Means, Syntax.meaning, GroupKind.flags, hbody]
    rfl
  · rw [List.forall_mem_singleton]
    rfl

/-- A group that may be missing. -/
theorem optional (h : Yields w es names) {e : Expr} (he : e ∈ es) (hg : e.greatest ≠ some 0) :
    Yields ("(?:".toList ++ w ++ ")?".toList) [.times 0 (some 1) true (.ofParts es)] names := by
  obtain ⟨items, hreads, hmeans, hparts⟩ := h
  have hrepeated : Expr.repeated 0 (some 1) true (.ofParts es) =
      .times 0 (some 1) true (.ofParts es) := by
    simp [Expr.repeated, Expr.greatest_ofParts_ne_zero he hg]
  refine ⟨_, hreads.optional, .cons ?_ .nil, ?_⟩
  · rw [Syntax.Means, Syntax.meaning, Spells.means_grouped hmeans hparts]
    exact congrArg (fun e => Except.ok (e, _)) hrepeated
  · rw [List.forall_mem_singleton]
    rfl

/-- The expression of an accepted text. -/
theorem parse {e : Expr} (h : Yields w es names) (hparse : Regex.parse w = .ok e) :
    e = .ofParts es := by
  obtain ⟨items, hreads, hmeans, hparts⟩ := h
  obtain ⟨-, -, f, he⟩ := hreads.parse hparse
  cases he.symm.trans (Syntax.means_ofItems hmeans hparts)
  rfl

end Yields

end Routing.Regex
