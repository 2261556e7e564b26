import Routing.Proofs.Regex.Preference

/-!
# The match that an expression prefers

Of all ways to match, an expression prefers one: a choice prefers its first branch from where the
rest can go on, a greedy repetition as many copies. These rules tell the preferred match for the
expressions that templates are made of, where `K` says after what the rest of the expression can
match.

* `Expr.Can` — the expression can match so that the rest can go on
* `Expr.Prefers` — the match that it prefers
* `Expr.find_of_prefers` — the search finds this match
-/

namespace Routing.Regex

variable {p : List Instr}

theorem at_singleton {i : Nat} {x : Instr} : At p i [x] ↔ p[i]? = some x := by
  have hnil : At p (i + 1) [] := List.nil_prefix
  rw [at_cons, and_iff_left hnil]

/-! ## What can be finished -/

/-- Who can finish from an instruction does so step by step. -/
theorem steps_of_finishes {b : Option Char} {s : Text} {i : Nat} (h : Finishes p b s i) {l : Text}
    (hl : l.getLast? = b) {t : Thread} (ht : t.next = i) :
    ∃ n f, f.Done p ∧ Steps p n ⟨t, l, s⟩ f := by
  induction h generalizing l t with
  | @done b s i h => exact ⟨0, _, by rwa [Config.Done, ht], .refl _⟩
  | @way b s i j x t' u hi ht' hw _ ih =>
    -- this thread takes the way that leads where the other one went
    have hmap : (x.ways b s.head? l.length t).map (·.next) = (x.ways b s.head? j t').map (·.next) :=
      Instr.map_next_ways (ht.trans ht'.symm)
    have hmem : u.next ∈ (x.ways b s.head? l.length t).map (·.next) := by
      rw [hmap]
      exact List.mem_map_of_mem hw
    obtain ⟨v, hv, hvn⟩ := List.mem_map.1 hmem
    obtain ⟨n, f, hf, hs⟩ := ih hl hvn
    subst hl ht
    exact ⟨n + 1, f, hf, .cons (.way hi hv) hs⟩
  | @take b c s i x hi hc _ ih =>
    obtain ⟨n, f, hf, hs⟩ := ih (l := l ++ [c]) List.getLast?_concat (t := t.step)
      (congrArg (· + 1) ht)
    subst ht
    exact ⟨n + 1, f, hf, .cons (.take hi hc) hs⟩

/-- Whoever comes to the end step by step can finish. -/
theorem finishes_of_steps {n : Nat} {a f : Config} (hf : f.Done p) (hs : Steps p n a f) :
    Finishes p a.before.getLast? a.after a.thread.next := by
  induction hs with
  | refl => exact .done hf
  | cons h _ ih =>
    cases h with
    | take hi hc =>
      have := ih hf
      rw [List.getLast?_concat] at this
      exact .take hi hc this
    | way hi ht => exact .way hi rfl ht (ih hf)

/-- From the beginning of code one can finish when one can from behind a match of it. -/
theorem Realizes.finishes_iff {M : Lang} {i k : Nat} (h : Realizes p M i k) {l s : Text} :
    Finishes p l.getLast? s i ↔
      ∃ t r g, s = t ++ r ∧ M l t r g ∧ Finishes p (l ++ t).getLast? r k := by
  constructor
  · intro hf
    obtain ⟨n, f, hdone, hs⟩ := steps_of_finishes hf rfl (t := ⟨i, [], []⟩) rfl
    obtain ⟨m, -, b, ⟨t, g, hat, hbt, hM, hk, -⟩, hs⟩ := h.leave rfl hdone hs
    have hb := finishes_of_steps hdone hs
    rw [hbt, hk] at hb
    exact ⟨t, b.after, g, hat, hM, hb⟩
  · rintro ⟨t, r, g, rfl, hM, hf⟩
    exact h.enter hM hf

section Instructions

variable {b : Option Char} {s : Text} {i n : Nat}

theorem finishes_jump (hi : p[i]? = some (.jump n)) :
    Finishes p b s i ↔ Finishes p b s (i + 1 + n) := by
  rw [finishes_iff_way hi (by simp) (t := ⟨i, [], []⟩) rfl 0]
  simp [Instr.ways, Thread.goTo]

/-- Before a decision to go back one can finish from the beginning of the body or from behind it. -/
theorem finishes_again (hi : p[i]? = some (.again true n)) :
    Finishes p b s i ↔ Finishes p b s (i - n) ∨ Finishes p b s (i + 1) := by
  rw [finishes_iff_way hi (by simp) (t := ⟨i, [], []⟩) rfl 0]
  simp [Instr.ways, Thread.goTo, Thread.step]

/-- Closing a group is no obstacle to finishing. -/
theorem finishes_closed {name : Text} (hi : p[i]? = some (.closed name)) :
    Finishes p b s i ↔ Finishes p b s (i + 1) := by
  rw [finishes_iff_way hi (by simp) (t := ⟨i, [], []⟩) rfl 0]
  simp [Instr.ways, Thread.goTo, Thread.step, Thread.closeAt]

end Instructions

/-! ## Going on by preferred ways -/

/-- Coming to `b` at instruction `k`, thread `a` has taken a text, and has bound groups; what `b`
comes to by the preferred ways, `a` does. -/
structure Passes (p : List Instr) (k : Nat) (l t r : Text) (g : Groups) (a b : Thread) : Prop where
  next : b.next = k
  opened : b.opened = a.opened
  groups : b.groups (l ++ t ++ r) = g ++ a.groups (l ++ t ++ r)
  chooses : ∀ n f, Chooses p n ⟨b, l ++ t, r⟩ f → ∃ m, Chooses p m ⟨a, l, t ++ r⟩ f

namespace Passes

variable {k : Nat} {l t r : Text} {g : Groups} {a b c : Thread}

/-- Texts taken one after the other are taken together, and so are the groups bound. -/
theorem trans {j : Nat} {t' : Text} {g' : Groups} (h : Passes p j l t (t' ++ r) g a b)
    (h' : Passes p k (l ++ t) t' r g' b c) : Passes p k l (t ++ t') r (g' ++ g) a c where
  next := h'.next
  opened := h'.opened.trans h.opened
  groups := by
    have hb := h.groups
    have hc := h'.groups
    simp only [List.append_assoc] at hb hc ⊢
    rw [hc, hb]
  chooses := by
    intro n f hf
    rw [← List.append_assoc] at hf
    obtain ⟨m, hm⟩ := h'.chooses n f hf
    rw [List.append_assoc]
    exact h.chooses m f hm

/-- The thread goes one way without taking a character or binding anything. -/
theorem way {x : Instr} (dead : List Thread) {rest : List Thread} (hi : p[a.next]? = some x)
    (hw : x.ways l.getLast? r.head? l.length a = dead ++ b :: rest) (hdead : Hopeless p l r dead)
    (hk : b.next = k) (ho : b.opened = a.opened) (hs : b.spans = a.spans) :
    Passes p k l [] r [] a b where
  next := hk
  opened := ho
  groups := by rw [Thread.groups, Thread.groups, hs]; rfl
  chooses := by
    intro n f hf
    rw [List.append_nil] at hf
    exact ⟨n + 1, .way hi hw hdead hf⟩

/-- The first way is taken. -/
theorem first {x : Instr} {rest : List Thread} (hi : p[a.next]? = some x)
    (hw : x.ways l.getLast? r.head? l.length a = b :: rest) (hk : b.next = k)
    (ho : b.opened = a.opened) (hs : b.spans = a.spans) : Passes p k l [] r [] a b :=
  way [] hi hw (by simp [Hopeless]) hk ho hs

/-- The second way is taken, as there is no hope on the first one. -/
theorem second {x : Instr} {d : Thread} (hi : p[a.next]? = some x)
    (hw : x.ways l.getLast? r.head? l.length a = [d, b])
    (hdead : ¬ Finishes p l.getLast? r d.next) (hk : b.next = k) (ho : b.opened = a.opened)
    (hs : b.spans = a.spans) : Passes p k l [] r [] a b :=
  way [d] hi (hw.trans (List.append_cons [] d [b]).symm) (by simpa [Hopeless] using hdead) hk ho hs

/-- The thread goes one way, and on from there. -/
theorem after {j : Nat} (h : Passes p j l [] (t ++ r) [] a b) (h' : Passes p k l t r g b c) :
    Passes p k l t r g a c := by
  have := h.trans (by rwa [List.append_nil])
  rwa [List.append_nil] at this

/-- The thread goes on, and one way from there. -/
theorem before {j : Nat} (h : Passes p j l t r g a b) (h' : Passes p k (l ++ t) [] r [] b c) :
    Passes p k l t r g a c := by
  have h : Passes p j l t ([] ++ r) g a b := h
  have := h.trans h'
  rwa [List.append_nil] at this

/-- Around a body a group is bound to the text that the body takes. -/
theorem bind {j : Nat} {name : Text}
    (h : Passes p j l t r g (a.openAt l.length).step b) (ho : p[a.next]? = some .opened)
    (hc : p[b.next]? = some (.closed name)) :
    Passes p (j + 1) l t r ((name, t) :: g) a (b.closeAt name (l ++ t).length).step := by
  obtain ⟨hnext, hopened, hgroups⟩ := Thread.closeAt_of_opened name (l ++ t).length h.opened
  refine ⟨?_, hopened, ?_, fun n f hf => ?_⟩
  · exact congrArg (· + 1) (hnext.trans h.next)
  -- the text cut out between the two places is the one that the body took
  · have htext : ((l ++ t ++ r).drop l.length).take ((l ++ t).length - l.length) = t := by
      rw [List.append_assoc, List.drop_left, List.length_append, Nat.add_sub_cancel_left,
        List.take_left]
    have hb := h.groups
    exact (hgroups _).trans (by rw [htext, hb]; rfl)
  · have hclose : Chooses p (n + 1) ⟨b, l ++ t, r⟩ f := .first hc rfl hf
    obtain ⟨m, hm⟩ := h.chooses _ f hclose
    exact ⟨m + 1, .first ho rfl hm⟩

end Passes

namespace Expr

/-! ## Preferred matches -/

/-- The expression can match at a place so that the rest can go on. -/
def Can (e : Expr) (K : Text → Text → Prop) (l s : Text) : Prop :=
  ∃ t r g, s = t ++ r ∧ e.Matches l t r g ∧ K (l ++ t) r

/-- Of the matches after which the rest can go on, the expression prefers the one that takes `t` and
binds `g`. -/
inductive Prefers : Expr → (Text → Text → Prop) → (l t r : Text) → Groups → Prop
  | empty {K l r} (hK : K l r) : Prefers .empty K l [] r []
  | set {s : CharSet} {K l c r} (hc : s.mem c = true) (hK : K (l ++ [c]) r) :
    Prefers (.set s) K l [c] r []
  | look {x : Look} {K l r} (hx : x.holds l.getLast? r.head? = true) (hK : K l r) :
    Prefers (.look x) K l [] r []
  | seq {a b K l t t' r g g'} (ha : Prefers a (Can b K) l t (t' ++ r) g)
    (hb : Prefers b K (l ++ t) t' r g') : Prefers (.seq a b) K l (t ++ t') r (g' ++ g)
  | first {a b K l t r g} (h : Prefers a K l t r g) : Prefers (.alt a b) K l t r g
  | second {a b K l t r g} (hno : ¬ Can a K l (t ++ r)) (h : Prefers b K l t r g) :
    Prefers (.alt a b) K l t r g
  | plain {e K l t r g} (h : Prefers e K l t r g) : Prefers (.group none e) K l t r g
  | named {e K l t r g name} (h : Prefers e K l t r g) :
    Prefers (.group (some name) e) K l t r ((name, t) :: g)
  | present {e K l t r g} (h : Prefers e K l t r g) : Prefers (.times 0 (some 1) true e) K l t r g
  | absent {e K l r} (hno : ¬ Can e K l r) (hK : K l r) :
    Prefers (.times 0 (some 1) true e) K l [] r []
  | last {e K l t r g}
    (h : Prefers e (fun l r => Can (.times 1 none true e) K l r ∨ K l r) l t r g)
    (hno : ¬ Can (.times 1 none true e) K (l ++ t) r) (hK : K (l ++ t) r) :
    Prefers (.times 1 none true e) K l t r g
  | again {e K l t t' r g g'}
    (h : Prefers e (fun l r => Can (.times 1 none true e) K l r ∨ K l r) l t (t' ++ r) g)
    (h' : Prefers (.times 1 none true e) K (l ++ t) t' r g') :
    Prefers (.times 1 none true e) K l (t ++ t') r (g' ++ g)

/-- From the beginning of an expression's code one can finish when the expression can match. -/
theorem finishes_code {e : Expr} {i : Nat} {K : Text → Text → Prop} (hp : At p i e.code)
    (hK : ∀ l r, Finishes p l.getLast? r (i + e.code.length) ↔ K l r) (l s : Text) :
    Finishes p l.getLast? s i ↔ Can e K l s := by
  rw [(realizes_code e hp).finishes_iff]
  simp only [hK]
  rfl

/-- A greedy repetition of at least one copy is the body and a decision to go back. -/
theorem code_plus (e : Expr) :
    (times 1 none true e).code = e.code ++ [.again true e.code.length] := by
  simp [code, Instr.copies]

/-- Where such a repetition stands, its body does, with the decision behind it. -/
theorem at_plus {e : Expr} {i : Nat} : At p i (times 1 none true e).code ↔
    At p i e.code ∧ p[i + e.code.length]? = some (.again true e.code.length) := by
  rw [code_plus, at_append, at_singleton]

theorem length_plus (e : Expr) (i : Nat) :
    i + (times 1 none true e).code.length = i + e.code.length + 1 := by
  rw [code_plus, List.length_append, List.length_singleton, Nat.add_assoc]

/-- What may be missing is a decision to leave it out and the body. -/
theorem code_optional (e : Expr) :
    (times 0 (some 1) true e).code = .skip true e.code.length :: e.code := by
  simp [code, Instr.copies, Instr.upTo]

theorem at_optional {e : Expr} {i : Nat} : At p i (times 0 (some 1) true e).code ↔
    p[i]? = some (.skip true e.code.length) ∧ At p (i + 1) e.code := by
  rw [code_optional, at_cons]

theorem length_optional (e : Expr) (i : Nat) :
    i + (times 0 (some 1) true e).code.length = i + 1 + e.code.length := by
  rw [code_optional, List.length_cons, Nat.add_right_comm, Nat.add_assoc]

/-- Where a choice stands, its branches do, with a decision before the first and a jump over the
second between them. -/
theorem at_alt {a b : Expr} {i : Nat} : At p i (alt a b).code ↔
    p[i]? = some (.skip true (a.code.length + 1)) ∧ At p (i + 1) a.code ∧
      p[i + 1 + a.code.length]? = some (.jump b.code.length) ∧
      At p (i + 1 + (a.code.length + 1)) b.code := by
  rw [code, List.cons_append, at_cons, at_append, at_cons]
  rfl

theorem length_alt (a b : Expr) (i : Nat) : i + (alt a b).code.length =
    i + 1 + (a.code.length + 1) + b.code.length := by
  simp only [code, List.length_cons, List.length_append]
  omega

/-- Where a group that binds stands, its body does between the two instructions that bind it. -/
theorem at_group {name : Text} {e : Expr} {i : Nat} : At p i (group (some name) e).code ↔
    p[i]? = some .opened ∧ At p (i + 1) e.code ∧
      p[i + 1 + e.code.length]? = some (.closed name) := by
  rw [code, List.cons_append, at_cons, at_append, at_singleton]

theorem length_group (name : Text) (e : Expr) (i : Nat) :
    i + (group (some name) e).code.length = i + 1 + e.code.length + 1 := by
  simp only [code, List.length_cons, List.length_append, List.length_nil]
  omega

section Inside

variable {e e' : Expr} {K : Text → Text → Prop} {i : Nat}

/-- Behind the first branch one goes on behind the choice. -/
theorem finishes_branch (hp : At p i (alt e e').code)
    (hK : ∀ l r, Finishes p l.getLast? r (i + (alt e e').code.length) ↔ K l r) (l r : Text) :
    Finishes p l.getLast? r (i + 1 + e.code.length) ↔ K l r := by
  obtain ⟨-, -, hjump, -⟩ := at_alt.1 hp
  rw [length_alt] at hK
  exact (finishes_jump hjump).trans (hK l r)

/-- Behind the body of a repetition one begins it again or goes on. -/
theorem finishes_body (hp : At p i (times 1 none true e).code)
    (hK : ∀ l r, Finishes p l.getLast? r (i + (times 1 none true e).code.length) ↔ K l r)
    (l r : Text) :
    Finishes p l.getLast? r (i + e.code.length) ↔ Can (times 1 none true e) K l r ∨ K l r := by
  obtain ⟨-, hagain⟩ := at_plus.1 hp
  -- going back leads to the beginning of the repetition
  rw [finishes_again hagain, Nat.add_sub_cancel, finishes_code hp hK, ← length_plus, hK]

/-- A way through the first branch goes on over the second one. -/
theorem passes_branch {l t r : Text} {g : Groups} {a b : Thread} (hp : At p a.next (alt e e').code)
    (hb : Passes p (a.next + 1 + e.code.length) l t r g a.step b) :
    ∃ c, Passes p (a.next + (alt e e').code.length) l t r g a c := by
  obtain ⟨hskip, -, hjump, -⟩ := at_alt.1 hp
  rw [length_alt]
  have hfork : Passes p _ l [] (t ++ r) [] a a.step := .first hskip rfl rfl rfl rfl
  -- the thread behind the branch stands at the jump
  rw [← hb.next] at hjump
  have hover : Passes p (a.next + 1 + (e.code.length + 1) + e'.code.length) (l ++ t) [] r [] b
      (b.goTo (b.next + 1 + e'.code.length)) :=
    .first hjump rfl (congrArg (· + 1 + e'.code.length) hb.next) rfl rfl
  exact ⟨_, (hfork.after hb).before hover⟩

end Inside

/-- By the preferred ways a thread goes through an expression's code as the expression prefers. -/
theorem exists_passes {e : Expr} {K : Text → Text → Prop} {l t r : Text} {g : Groups}
    (h : e.Prefers K l t r g) {i : Nat} (hp : At p i e.code)
    (hK : ∀ l r, Finishes p l.getLast? r (i + e.code.length) ↔ K l r) {a : Thread}
    (ha : a.next = i) : ∃ b, Passes p (i + e.code.length) l t r g a b := by
  -- over the rules by which an expression prefers a match
  induction h generalizing i a with
  | empty => exact ⟨a, ha, rfl, rfl, fun n f hf => ⟨n, by simpa using hf⟩⟩
  | @set s K l c r hc =>
    have hi := (at_cons.1 hp).1
    subst ha
    exact ⟨a.step, rfl, rfl, rfl, fun n f hf => ⟨0, .take hi hc hf⟩⟩
  | @look x K l r hx =>
    have hi := (at_cons.1 hp).1
    subst ha
    have hways : (Instr.look x).ways l.getLast? r.head? l.length a = [a.step] := by
      rw [Instr.ways, if_pos hx]
    exact ⟨a.step, .first hi hways rfl rfl rfl⟩
  | @seq a' b' K l t t' r g g' _ _ iha ihb =>
    rw [code, at_append] at hp
    rw [code, List.length_append, ← Nat.add_assoc] at hK ⊢
    obtain ⟨b, hb⟩ := iha hp.1 (finishes_code hp.2 hK) ha
    obtain ⟨c, hc⟩ := ihb hp.2 hK hb.next
    exact ⟨c, hb.trans hc⟩
  | @first e e' K l t r g _ ih =>
    subst ha
    obtain ⟨b, hb⟩ := ih (at_alt.1 hp).2.1 (finishes_branch hp hK) (a := a.step) rfl
    exact passes_branch hp hb
  | @second e e' K l t r g hno _ ih =>
    obtain ⟨hskip, he, -, he'⟩ := at_alt.1 hp
    -- that the first branch cannot match makes the first way a dead one
    rw [← finishes_code he (finishes_branch hp hK)] at hno
    rw [length_alt] at hK ⊢
    subst ha
    obtain ⟨b, hb⟩ := ih he' hK (a := a.goTo (a.next + 1 + (e.code.length + 1))) rfl
    have hfork : Passes p _ l [] (t ++ r) [] a (a.goTo (a.next + 1 + (e.code.length + 1))) :=
      .second hskip rfl hno rfl rfl rfl
    exact ⟨b, hfork.after hb⟩
  | plain _ ih => exact ih hp hK ha
  | @named e K l t r g name _ ih =>
    obtain ⟨hopen, he, hclose⟩ := at_group.1 hp
    rw [length_group] at hK ⊢
    subst ha
    obtain ⟨b, hb⟩ := ih he (fun l r => (finishes_closed hclose).trans (hK l r))
      (a := (a.openAt l.length).step) rfl
    rw [← hb.next] at hclose
    exact ⟨_, hb.bind hopen hclose⟩
  | @present e K l t r g _ ih =>
    obtain ⟨hskip, he⟩ := at_optional.1 hp
    rw [length_optional] at hK ⊢
    subst ha
    obtain ⟨b, hb⟩ := ih he hK (a := a.step) rfl
    have hskip : Passes p _ l [] (t ++ r) [] a a.step := .first hskip rfl rfl rfl rfl
    exact ⟨b, hskip.after hb⟩
  | @absent e K l r hno _ =>
    obtain ⟨hskip, he⟩ := at_optional.1 hp
    rw [length_optional] at hK ⊢
    subst ha
    have hdead : ¬ Finishes p l.getLast? r a.step.next := by
      rwa [← finishes_code he hK] at hno
    exact ⟨_, .second hskip rfl hdead rfl rfl rfl⟩
  | @last e K l t r g _ hno _ ih =>
    obtain ⟨he, hagain⟩ := at_plus.1 hp
    obtain ⟨b, hb⟩ := ih he (finishes_body hp hK) ha
    rw [← hb.next] at hagain
    -- the way back is dead when no further round can match
    have hdead : ¬ Finishes p (l ++ t).getLast? r (b.goTo (b.next - e.code.length)).next := by
      rwa [Thread.goTo, hb.next, Nat.add_sub_cancel, finishes_code hp hK]
    rw [length_plus]
    exact ⟨_, hb.before (.second hagain rfl hdead (congrArg (· + 1) hb.next) rfl rfl)⟩
  | @again e K l t t' r g g' _ _ ih ih' =>
    obtain ⟨he, hagain⟩ := at_plus.1 hp
    obtain ⟨b, hb⟩ := ih he (finishes_body hp hK) ha
    rw [← hb.next] at hagain
    have hi : b.next - e.code.length = i := by rw [hb.next, Nat.add_sub_cancel]
    have hround := hb.before (.first hagain rfl hi rfl rfl)
    obtain ⟨c, hc⟩ := ih' hp hK hround.next
    exact ⟨c, hround.trans hc⟩

/-- The search finds the preferred match at the beginning of a text. -/
theorem find_of_prefers {e : Expr} {t r : Text} {g : Groups}
    (h : e.Prefers (fun _ _ => True) [] t r g) : e.find? (t ++ r) = some g := by
  -- everything is matched behind the last instruction, so any text may follow
  have hend (l r : Text) : Finishes e.code l.getLast? r (0 + e.code.length) ↔ True :=
    iff_true_intro (.done (by rw [Nat.zero_add]))
  obtain ⟨b, hb⟩ := exists_passes h (at_self e.code) hend (a := .start) rfl
  have hdone : e.code.length ≤ b.next := by rw [hb.next, Nat.zero_add]
  obtain ⟨m, hm⟩ := hb.chooses 0 b (.done hdone)
  have hfind : search e.code.toArray none ([] : Text).getLast? ([] : Text).length
      ([] ++ .start :: []) (t ++ r) = some b := search_of_chooses (by simp [Hopeless]) hm
  have hgroups := hb.groups
  rw [List.nil_append] at hgroups
  rw [find?]
  refine Option.map_eq_some_iff.2 ⟨b, hfind, ?_⟩
  rw [hgroups]
  exact List.append_nil g

end Expr

end Routing.Regex
