import Routing.Proofs.Regex.Binding
import Routing.Proofs.Regex.Choice
import Routing.Proofs.Regex.Spelling

/-!
# Texts that denote languages

An expression that is accepted need not be told in advance: when a text was read to its end, each
text that it was put together of has been read as its own parts, and its groups have names of their
own. So the language of the whole is made of the languages of these texts.

* `Reads` — where a text is read to its end, this part of it is read as these items
* `Denotes` — what such a part matches
* `Denotes.append`, `Denotes.named`, `Denotes.optional`, `Denotes.oneOf` — putting parts together
* `Denotes.parse` — what an accepted expression matches
-/

namespace Routing.Regex

open Reader

/-! ## Reading -/

/-- Wherever a text is read to its end, this part of it, before anything but a question mark, is
read as these items, and the groups in it have these names, which are new. -/
def Reads (w : Text) (items : List Syntax) (names : List Text) : Prop :=
  ∀ st st' : State, st.extended = false → ∀ s : Text, s.head? ≠ some '?' →
    run st (w ++ s) = .ok st' →
      names.Nodup ∧ (∀ n ∈ names, n ∉ st.names) ∧ run (st.add items names) s = .ok st'

namespace Reads

variable {w w' : Text} {items items' : List Syntax} {names names' : List Text}

/-- A text without groups of its own. -/
theorem of_written (h : Written w items []) : Reads w items [] := by
  intro st st' hx s hs hrun
  rw [h st hx List.nodup_nil (by simp) s hs] at hrun
  exact ⟨List.nodup_nil, by simp, hrun⟩

/-- In an accepted text, what comes behind a text that is read as some items is read behind them. -/
theorem append (h : Reads w items names) (h' : Reads w' items' names')
    (hw' : w'.head? ≠ some '?') : Reads (w ++ w') (items ++ items') (names ++ names') := by
  intro st st' hx s hs hrun
  have hs' : (w' ++ s).head? ≠ some '?' := by
    cases w' with
    | nil => exact hs
    | cons c w' => exact hw'
  rw [List.append_assoc] at hrun
  obtain ⟨hnodup, hnew, hrun⟩ := h st st' hx _ hs' hrun
  obtain ⟨hnodup', hnew', hrun⟩ := h' (st.add items names) st' hx s hs hrun
  have hnames (n : Text) (hn : n ∈ names') : n ∉ names ∧ n ∉ st.names := by
    have := hnew' n hn
    rwa [State.add, List.mem_append, List.mem_reverse, not_or] at this
  refine ⟨?_, ?_, ?_⟩
  · apply List.nodup_append.2
    refine ⟨hnodup, hnodup', ?_⟩
    intro n hn n' hn' heq
    exact (hnames n' hn').1 (heq ▸ hn)
  · rw [List.forall_mem_append]
    exact ⟨hnew, fun n hn => (hnames n hn).2⟩
  · rwa [State.add_add] at hrun

/-! ### Groups -/

/-- The state inside a group of this kind. -/
def inside (st : State) (kind : GroupKind) (names : List Text) : State :=
  { st with
    items := []
    branches := []
    scopes := ⟨kind, st.items, st.branches, st.extended⟩ :: st.scopes
    names := names ++ st.names }

/-- What is left of a group when its parenthesis is closed. -/
theorem step_close {st st₁ : State} {kind : GroupKind}
    (hscopes : st₁.scopes = ⟨kind, st.items, st.branches, st.extended⟩ :: st.scopes) (s : Text) :
    step st₁ ')' s =
      .ok ({ st with items := .group kind st₁.body :: st.items, names := st₁.names }, s) := by
  simp [step, State.closeGroup, hscopes, bind, Except.bind, pure, Except.pure]

/-- Reading goes on behind a group as if the group had been one item. -/
theorem run_close (st : State) {st₁ st' : State} {kind : GroupKind} {s : Text}
    (hscopes : st₁.scopes = ⟨kind, st.items, st.branches, st.extended⟩ :: st.scopes)
    (hx : st₁.extended = false) (hrun : run st₁ (')' :: s) = .ok st') :
    run { st with items := .group kind st₁.body :: st.items, names := st₁.names } s =
      .ok st' := by
  rw [run_cons hx, step_close hscopes] at hrun
  exact hrun

/-- The head of a group that only groups leads inside it. -/
theorem run_flagged {st : State} (hx : st.extended = false) (s : Text) :
    run st ("(?:".toList ++ s) = run (inside st (.flagged ⟨[], []⟩) []) s :=
  Reader.run_flagged hx s

/-- Inside a group that was just opened, what is read is its body. -/
theorem body_add (st : State) (kind : GroupKind) (items : List Syntax) (names names' : List Text) :
    ((inside st kind names).add items names').body = .ofItems items := by
  simp [State.body, State.add, inside, Syntax.ofBranches]

/-- A group that only groups, before whatever follows it. -/
theorem run_grouped (h : Reads w items names) {st st' : State} (hx : st.extended = false) {s : Text}
    (hrun : run st ("(?:".toList ++ w ++ ')' :: s) = .ok st') :
    names.Nodup ∧ (∀ n ∈ names, n ∉ st.names) ∧
      run (st.add [.group (.flagged ⟨[], []⟩) (.ofItems items)] names) s = .ok st' := by
  rw [List.append_assoc, run_flagged hx] at hrun
  obtain ⟨hnodup, hnew, hrun⟩ := h _ _ (by exact hx) _ (by simp) hrun
  refine ⟨hnodup, hnew, ?_⟩
  have := run_close st rfl (by exact hx) hrun
  rwa [body_add] at this

/-- A group that may be missing. -/
theorem optional (h : Reads w items names) :
    Reads ("(?:".toList ++ w ++ ")?".toList)
      [.times 0 (some 1) true (.group (.flagged ⟨[], []⟩) (.ofItems items))] names := by
  intro st st' hx s hs hrun
  rw [List.append_assoc] at hrun
  obtain ⟨hnodup, hnew, hrun⟩ := run_grouped h hx (s := '?' :: s) hrun
  refine ⟨hnodup, hnew, ?_⟩
  rw [run_cons (by exact hx)] at hrun
  have hlazy := laziness_of_head hs
  have hstep : step (st.add [.group (.flagged ⟨[], []⟩) (.ofItems items)] names) '?' s =
      .ok (st.add [.times 0 (some 1) true (.group (.flagged ⟨[], []⟩) (.ofItems items))] names,
        s) := by
    simp [step, hlazy, State.repeatLast, State.add, Syntax.isRepeatable, bind, Except.bind, pure,
      Except.pure]
  rw [hstep] at hrun
  exact hrun

/-- A group that binds its text. -/
theorem named {name : Text} (h : Reads w items names) (hname : isGroupName name = true)
    (hgt : '>' ∉ name) :
    Reads ("(?P<".toList ++ name ++ ['>'] ++ w ++ [')'])
      [.group (.named name) (.ofItems items)] (name :: names) := by
  intro st st' hx s _ hrun
  have hopen : "(?P<".toList ++ name ++ ['>'] ++ w ++ [')'] ++ s =
      '(' :: '?' :: 'P' :: '<' :: (name ++ '>' :: (w ++ ')' :: s)) := by simp
  rw [hopen, run_cons hx] at hrun
  -- a name that is in use already makes reading fail, against what was assumed
  by_cases hmem : name ∈ st.names
  · have hstep : step st '(' ('?' :: 'P' :: '<' :: (name ++ '>' :: (w ++ ')' :: s))) =
        .error .groupNameTwice := by
      simp [step, hx, groupHead_name hname hgt, State.openGroup, hmem, bind, Except.bind]
    rw [hstep] at hrun
    cases hrun
  · have hstep : step st '(' ('?' :: 'P' :: '<' :: (name ++ '>' :: (w ++ ')' :: s))) =
        .ok (inside st (.named name) [name], w ++ ')' :: s) := by
      simp [step, hx, groupHead_name hname hgt, State.openGroup, inside, hmem, bind, Except.bind,
        pure, Except.pure]
    rw [hstep] at hrun
    obtain ⟨hnodup, hnew, hrun⟩ := h _ _ (by exact hx) _ (by simp) hrun
    have hnew (n : Text) (hn : n ∈ names) : n ≠ name ∧ n ∉ st.names := by
      have := hnew n hn
      rwa [inside, List.singleton_append, List.mem_cons, not_or] at this
    refine ⟨?_, ?_, ?_⟩
    · exact List.nodup_cons.2 ⟨fun hn => (hnew name hn).1 rfl, hnodup⟩
    · exact List.forall_mem_cons.2 ⟨hmem, fun n hn => (hnew n hn).2⟩
    · have := run_close st rfl (by exact hx) hrun
      rw [body_add] at this
      simpa [State.add, inside] using this

/-! ### Branches -/

/-- Branches between bars, read up to the parenthesis that closes their group. -/
theorem run_branches {bs : List (Text × List Syntax)} {b : Text × List Syntax}
    (h : ∀ b' ∈ b :: bs, Reads b'.1 b'.2 []) {st st' : State} (hx : st.extended = false)
    (hst : st.items = []) {s : Text}
    (hrun : run st (['|'].intercalate ((b :: bs).map Prod.fst) ++ ')' :: s) = .ok st') :
    ∃ st₁ : State, st₁.scopes = st.scopes ∧ st₁.extended = false ∧ st₁.names = st.names ∧
      st₁.body = .ofBranches (st.branches.reverse ++ (b :: bs).map fun b => .ofItems b.2) ∧
      run st₁ (')' :: s) = .ok st' := by
  obtain ⟨hb, hbs⟩ := List.forall_mem_cons.1 h
  induction bs generalizing b st with
  | nil =>
    rw [List.map_singleton, List.intercalate_singleton] at hrun
    obtain ⟨-, -, hrun⟩ := hb st st' hx (')' :: s) (by simp) hrun
    refine ⟨_, ?_, ?_, ?_, ?_, hrun⟩
    · rfl
    · exact hx
    · rfl
    · simp [State.body, State.add, hst]
  | cons b' bs ih =>
    have htext : ['|'].intercalate ((b :: b' :: bs).map Prod.fst) ++ ')' :: s =
        b.1 ++ '|' :: (['|'].intercalate ((b' :: bs).map Prod.fst) ++ ')' :: s) := by
      simp [List.intercalate_cons_cons]
    rw [htext] at hrun
    obtain ⟨-, -, hrun⟩ := hb st st' hx _ (by simp) hrun
    rw [run_cons (by exact hx)] at hrun
    -- after the bar, the next branch starts without items
    replace hrun : run (st.add b.2 []).branch
        (['|'].intercalate ((b' :: bs).map Prod.fst) ++ ')' :: s) = .ok st' := hrun
    obtain ⟨hb', hbs'⟩ := List.forall_mem_cons.1 hbs
    obtain ⟨st₁, hscopes, hx₁, hnames, hbody, hrun⟩ :=
      ih hbs (by exact hx) (by rfl) hrun hb' hbs'
    refine ⟨st₁, hscopes, hx₁, hnames, ?_, hrun⟩
    rw [hbody]
    simp [State.branch, State.add, hst]

/-- A group of branches. -/
theorem oneOf {bs : List (Text × List Syntax)} (hne : bs ≠ [])
    (h : ∀ b ∈ bs, Reads b.1 b.2 []) :
    Reads ("(?:".toList ++ ['|'].intercalate (bs.map Prod.fst) ++ [')'])
      [.group (.flagged ⟨[], []⟩) (.ofBranches (bs.map fun b => .ofItems b.2))] [] := by
  intro st st' hx s _ hrun
  -- the head of the group, the branches up to its parenthesis, and the parenthesis
  obtain ⟨b, bs, rfl⟩ := List.exists_cons_of_ne_nil hne
  rw [List.append_assoc, List.append_assoc, run_flagged hx] at hrun
  obtain ⟨st₁, hscopes, hx₁, hnames, hbody, hrun⟩ := run_branches h (by exact hx) rfl hrun
  refine ⟨List.nodup_nil, by simp, ?_⟩
  have := run_close st (hscopes.trans rfl) hx₁ hrun
  rw [hbody, hnames] at this
  exact this

/-! ### Whole texts -/

/-- An accepted expression means what its parts mean, and its groups have different names. -/
theorem parse [Properties] {e : Expr} (h : Reads w items names) (hparse : Regex.parse w = .ok e) :
    names.Nodup ∧ (Syntax.ofItems items).depth ≤ Syntax.depthLimit ∧
      ∃ f, (Syntax.ofItems items).meaning {} = .ok (e, f) := by
  obtain ⟨st, f, hrun, -, hdepth, hmeaning, -⟩ := parse_eq_ok.1 hparse
  obtain ⟨hnodup, -, hrun⟩ := h .start st rfl [] (by simp) (by rwa [List.append_nil])
  rw [run_nil rfl] at hrun
  cases hrun
  have hbody : (State.start.add items names).body = .ofItems items := by
    simp [State.add, State.start, State.body, Syntax.ofBranches]
  rw [hbody] at hdepth hmeaning
  exact ⟨hnodup, hdepth, f, hmeaning⟩

end Reads

/-! ## Denoting -/

namespace Syntax

variable [Properties]

/-- Items mean what they mean one part after the other, the flags handed on. -/
theorem meanings_append {f f' f'' : Flags} {items items' : List Syntax} {es es' : List Expr}
    (h : Syntax.meanings f items = .ok (es, f')) (h' : Syntax.meanings f' items' = .ok (es', f'')) :
    Syntax.meanings f (items ++ items') = .ok (es ++ es', f'') := by
  induction items generalizing f es with
  | nil =>
    rw [Syntax.meanings] at h
    cases h
    exact h'
  | cons item items ih =>
    obtain ⟨e, g, es₁, hitem, hitems, rfl⟩ := meanings_cons.1 h
    exact meanings_cons.2 ⟨e, g, es₁ ++ es', hitem, ih hitems, rfl⟩

/-- One item means one expression. -/
theorem meanings_singleton {f f' : Flags} {item : Syntax} {es : List Expr} :
    Syntax.meanings f [item] = .ok (es, f') ↔ ∃ e, item.meaning f = .ok (e, f') ∧ es = [e] := by
  rw [meanings_cons]
  constructor
  · intro ⟨e, g, es', hitem, hnil, hes⟩
    rw [Syntax.meanings] at hnil
    cases hnil
    exact ⟨e, hitem, hes⟩
  · intro ⟨e, hitem, hes⟩
    exact ⟨e, f', [], hitem, Syntax.meanings.eq_1 _, hes⟩

/-- The parts of a sequence, one after the other. -/
theorem meaning_ofItems {f f' : Flags} {items : List Syntax} {es : List Expr}
    (h : Syntax.meanings f items = .ok (es, f')) :
    ∃ e, (ofItems items).meaning f = .ok (e, f') ∧ e.Matches = Expr.Chain es := by
  match items with
  | [] =>
    rw [Syntax.meanings] at h
    cases h
    exact ⟨.empty, Syntax.meaning.eq_1 _, rfl⟩
  | [item] =>
    obtain ⟨e, hitem, rfl⟩ := meanings_singleton.1 h
    exact ⟨e, hitem, (Lang.seq_nil _).symm⟩
  | item :: item' :: items =>
    refine ⟨.concat es, ?_, Expr.matches_concat es⟩
    rw [ofItems, Syntax.meaning, h]
    · rfl
    all_goals simp

/-- The branches of a choice. -/
theorem meaning_ofBranches {f f' : Flags} {bodies : List Syntax} {es : List Expr}
    (hne : bodies ≠ []) (h : Syntax.meanings f bodies = .ok (es, f')) :
    ∃ e, (ofBranches bodies).meaning f = .ok (e, f') ∧ e.Matches = Expr.Any es := by
  -- one branch is no choice and means itself
  match bodies with
  | [] => exact absurd rfl hne
  | [body] =>
    obtain ⟨e, he, hM⟩ := meaning_ofItems h
    refine ⟨e, he, ?_⟩
    obtain ⟨e', -, rfl⟩ := meanings_singleton.1 h
    rw [hM, Expr.chain_cons, Expr.chain_nil, Lang.seq_nil]
    exact (Lang.any_singleton _).symm
  | body :: body' :: bodies =>
    refine ⟨.choice es, ?_, Expr.matches_choice es⟩
    rw [ofBranches, Syntax.meaning, h]
    · rfl
    all_goals simp

end Syntax

/-- Where a text is accepted, this part of it matches the language, and the groups in it have these
names. -/
def Denotes [Properties] (w : Text) (M : Lang) (names : List Text) : Prop :=
  ∃ items es, Reads w items names ∧ Syntax.meanings {} items = .ok (es, {}) ∧ Expr.Chain es = M

namespace Denotes

variable [Properties] {w w' : Text} {M N : Lang} {names names' : List Text}

theorem of_spells {es : List Expr} {depth : Nat} (h : Spells w es [] depth) :
    Denotes w (Expr.Chain es) [] := by
  obtain ⟨items, hwritten, hmeans, -, -⟩ := h
  exact ⟨items, es, .of_written hwritten, Syntax.meanings_of_means hmeans, rfl⟩

/-- A text behind another denotes the sequence of the two. -/
theorem append (h : Denotes w M names) (h' : Denotes w' N names') (hw' : w'.head? ≠ some '?') :
    Denotes (w ++ w') (M.seq N) (names ++ names') := by
  obtain ⟨items, es, hreads, hmeans, rfl⟩ := h
  obtain ⟨items', es', hreads', hmeans', rfl⟩ := h'
  exact ⟨items ++ items', es ++ es', hreads.append hreads' hw',
    Syntax.meanings_append hmeans hmeans', Expr.chain_append es es'⟩

/-- A group that binds its text. -/
theorem named {name : Text} (h : Denotes w M names) (hname : isGroupName name = true)
    (hgt : '>' ∉ name) :
    Denotes ("(?P<".toList ++ name ++ ['>'] ++ w ++ [')'])
      (fun l t r g => ∃ g', M l t r g' ∧ g = (name, t) :: g') (name :: names) := by
  obtain ⟨items, es, hreads, hmeans, rfl⟩ := h
  obtain ⟨e, he, hM⟩ := Syntax.meaning_ofItems hmeans
  refine ⟨_, [.group (some name) e], hreads.named hname hgt, ?_, ?_⟩
  · refine Syntax.meanings_singleton.2 ⟨_, ?_, rfl⟩
    rw [Syntax.meaning, GroupKind.flags, he]
    rfl
  · rw [Expr.chain_cons, Expr.chain_nil, Lang.seq_nil, Expr.Matches, hM]

/-- A group that changes no flags means what is in it. -/
theorem meaning_flagged {body : Syntax} {e : Expr} (h : body.meaning {} = .ok (e, {})) :
    (Syntax.group (.flagged ⟨[], []⟩) body).meaning {} = .ok (e, {}) := by
  have hflags : GroupKind.flags {} (.flagged ⟨[], []⟩) = ({} : Flags) := rfl
  rw [Syntax.meaning, hflags, h]
  rfl

/-- A group that may be missing. -/
theorem optional (h : Denotes w M names) :
    Denotes ("(?:".toList ++ w ++ ")?".toList) (Lang.nil.or M) names := by
  obtain ⟨items, es, hreads, hmeans, rfl⟩ := h
  obtain ⟨e, he, hM⟩ := Syntax.meaning_ofItems hmeans
  have hrepeated : Expr.repeated 0 (some 1) true e = .times 0 (some 1) true e := by
    simp [Expr.repeated]
  refine ⟨_, [.times 0 (some 1) true e], hreads.optional, ?_, ?_⟩
  · refine Syntax.meanings_singleton.2 ⟨_, ?_, rfl⟩
    rw [Syntax.meaning, meaning_flagged he]
    exact congrArg (fun e => Except.ok (e, _)) hrepeated
  · rw [Expr.chain_cons, Expr.chain_nil, Lang.seq_nil, Expr.Matches, Lang.times_zero_one, hM]

/-- Texts that denote languages are read as branches with these languages. -/
theorem reads_branches {bs : List (Text × Lang)} (h : ∀ b ∈ bs, Denotes b.1 b.2 []) :
    ∃ (rs : List (Text × List Syntax)) (es : List Expr), rs.map Prod.fst = bs.map Prod.fst ∧
      (∀ b ∈ rs, Reads b.1 b.2 []) ∧
      Syntax.meanings {} (rs.map fun b => .ofItems b.2) = .ok (es, {}) ∧
      es.map Expr.Matches = bs.map Prod.snd := by
  induction bs with
  | nil => exact ⟨[], [], rfl, by simp, Syntax.meanings.eq_1 _, rfl⟩
  | cons b bs ih =>
    obtain ⟨hb, hbs⟩ := List.forall_mem_cons.1 h
    obtain ⟨items, es, hreads, hmeans, hM⟩ := hb
    obtain ⟨e, he, hE⟩ := Syntax.meaning_ofItems hmeans
    obtain ⟨rs, fs, htexts, hall, hmeanings, hlangs⟩ := ih hbs
    refine ⟨(b.1, items) :: rs, e :: fs, ?_, ?_, ?_, ?_⟩
    · rw [List.map_cons, htexts, List.map_cons]
    · exact List.forall_mem_cons.2 ⟨hreads, hall⟩
    · exact Syntax.meanings_append (Syntax.meanings_singleton.2 ⟨_, he, rfl⟩) hmeanings
    · rw [List.map_cons, hlangs, hE, hM, List.map_cons]

/-- A group of branches. -/
theorem oneOf {bs : List (Text × Lang)} (hne : bs ≠ []) (h : ∀ b ∈ bs, Denotes b.1 b.2 []) :
    Denotes ("(?:".toList ++ ['|'].intercalate (bs.map Prod.fst) ++ [')'])
      (.any (bs.map Prod.snd)) [] := by
  obtain ⟨rs, es, htexts, hreads, hmeans, hlangs⟩ := reads_branches h
  have hne' : rs ≠ [] := by
    intro hnil
    rw [hnil, List.map_nil] at htexts
    exact hne (List.map_eq_nil_iff.1 htexts.symm)
  obtain ⟨e, he, hM⟩ := Syntax.meaning_ofBranches (by simpa using hne') hmeans
  refine ⟨_, [e], htexts ▸ Reads.oneOf hne' hreads, ?_, ?_⟩
  · exact Syntax.meanings_singleton.2 ⟨_, meaning_flagged he, rfl⟩
  · rw [Expr.chain_cons, Expr.chain_nil, Lang.seq_nil, hM, Expr.Any, hlangs]

/-- What an accepted expression matches. -/
theorem parse {e : Expr} (h : Denotes w M names) (hparse : Regex.parse w = .ok e) :
    names.Nodup ∧ e.Matches = M := by
  obtain ⟨items, es, hreads, hmeans, rfl⟩ := h
  obtain ⟨hnodup, -, f, he⟩ := hreads.parse hparse
  obtain ⟨e', he', hM⟩ := Syntax.meaning_ofItems hmeans
  cases he'.symm.trans he
  exact ⟨hnodup, hM⟩

end Denotes

end Routing.Regex
