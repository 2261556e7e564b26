import Routing.Proofs.Regex.Language

/-!
# Programs carry out expressions

A program is followed step by step: a thread takes a character, or goes where its instruction leads
without one. The program of an expression, standing anywhere in a larger one, is left behind its
last instruction, and between its two ends it matches what the expression matches.

* `Steps` — a thread goes a number of steps along a text
* `Finishes` — some thread that stands at an instruction can still arrive behind the last one
* `Realizes` — the instructions between two places carry out a language; each way of putting code
  together has its lemma (`Realizes.seq`, `Realizes.or`, `Realizes.loop`, …)
* `Expr.realizes_code` — the program of an expression carries out its language
-/

namespace Routing.Regex

/-! ## Steps -/

/-- A thread at a place of a text. -/
structure Config where
  thread : Thread
  /-- The text before the place. -/
  before : Text
  after : Text

/-- One step: a thread takes the next character, or goes on without one. -/
inductive Step (p : List Instr) : Config → Config → Prop
  | take {t l r c s} (hi : p[t.next]? = some (.take s)) (hc : s.mem c = true) :
    Step p ⟨t, l, c :: r⟩ ⟨t.step, l ++ [c], r⟩
  | way {t t' l r i} (hi : p[t.next]? = some i)
    (ht : t' ∈ i.ways l.getLast? r.head? l.length t) : Step p ⟨t, l, r⟩ ⟨t', l, r⟩

inductive Steps (p : List Instr) : Nat → Config → Config → Prop
  | refl (a) : Steps p 0 a a
  | cons {n a b c} (h : Step p a b) (hs : Steps p n b c) : Steps p (n + 1) a c

/-- A run may be continued at its end, where `Steps.cons` puts a step in front. -/
theorem Steps.snoc {p : List Instr} {n : Nat} {a b c : Config} (hs : Steps p n a b)
    (h : Step p b c) : Steps p (n + 1) a c := by
  induction hs with
  | refl => exact .cons h (.refl _)
  | cons h' _ ih => exact .cons h' (ih h)

/-- A thread behind the last instruction. -/
def Config.Done (p : List Instr) (a : Config) : Prop := p.length ≤ a.thread.next

/-- Whoever is not done finishes with a step. -/
theorem Steps.exists_step {p : List Instr} {n : Nat} {a f : Config} (hs : Steps p n a f)
    (hf : f.Done p) (ha : a.thread.next < p.length) :
    ∃ m b, n = m + 1 ∧ Step p a b ∧ Steps p m b f := by
  cases hs with
  | refl => exact absurd ha (Nat.not_lt.2 hf)
  | cons h hs => exact ⟨_, _, rfl, h, hs⟩

/-- A thread at instruction `i`, whatever it has bound, can arrive behind the last one. -/
inductive Finishes (p : List Instr) : Option Char → Text → Nat → Prop
  | done {b s i} (h : p.length ≤ i) : Finishes p b s i
  | way {b s i j x t u} (hi : p[i]? = some x) (ht : t.next = i)
    (hw : u ∈ x.ways b s.head? j t) (hf : Finishes p b s u.next) : Finishes p b s i
  | take {b c s i x} (hi : p[i]? = some (.take x)) (hc : x.mem c = true)
    (hf : Finishes p (some c) s (i + 1)) : Finishes p b (c :: s) i

/-- With a group open, closing it pops the group and records the text since its start. -/
theorem Thread.closeAt_of_opened {t : Thread} {o : Nat} {os : List Nat} (name : Text) (j : Nat)
    (h : t.opened = o :: os) :
    (t.closeAt name j).next = t.next ∧ (t.closeAt name j).opened = os ∧
      ∀ s, (t.closeAt name j).groups s = (name, (s.drop o).take (j - o)) :: t.groups s := by
  rw [closeAt, h]
  exact ⟨rfl, rfl, fun _ => rfl⟩

/-! ## Code at a place -/

/-- The program holds `code` from instruction `i` on. -/
def At (p : List Instr) (i : Nat) (code : List Instr) : Prop := code <+: p.drop i

/-- A program holds code from a place on when its first instruction stands there and the rest
behind. -/
theorem at_cons {p : List Instr} {i : Nat} {x : Instr} {code : List Instr} :
    At p i (x :: code) ↔ p[i]? = some x ∧ At p (i + 1) code := by
  rcases Nat.lt_or_ge i p.length with h | h
  · rw [At, At, List.drop_eq_getElem_cons h, List.cons_prefix_cons, List.getElem?_eq_getElem h]
    simp [eq_comm]
  · rw [At, List.drop_eq_nil_of_le h, List.getElem?_eq_none h]
    simp

/-- Code put together stands at a place when its parts stand one behind the other. -/
theorem at_append {p : List Instr} {i : Nat} {a b : List Instr} :
    At p i (a ++ b) ↔ At p i a ∧ At p (i + a.length) b := by
  induction a generalizing i with
  | nil => simp [At]
  | cons x a ih =>
    rw [List.cons_append, at_cons, at_cons, ih, List.length_cons, and_assoc,
      show i + 1 + a.length = i + (a.length + 1) by omega]

/-- Every program holds itself, from its first instruction on. -/
theorem at_self (p : List Instr) : At p 0 p := List.prefix_refl p

namespace Instr

/-- Copies may be counted from the back as well, which is how a repetition puts them together. -/
theorem copies_succ (n : Nat) (code : List Instr) :
    copies (n + 1) code = copies n code ++ code := by
  rw [copies, List.replicate_succ', List.flatten_append, List.flatten_singleton]
  rfl

/-- One more copy that may be left out stands in front, behind a decision to leave out all of them.
-/
theorem upTo_succ (greedy : Bool) (n : Nat) (code : List Instr) :
    upTo greedy (n + 1) code =
      skip greedy (code.length + n * (code.length + 1)) :: (code ++ upTo greedy n code) := by
  rw [upTo, List.range_succ, List.foldl_append]
  rfl

/-- How long the code of a bounded repetition is. -/
theorem length_upTo (greedy : Bool) (n : Nat) (code : List Instr) :
    (upTo greedy n code).length = n * (code.length + 1) := by
  induction n with
  | zero => simp [upTo]
  | succ n ih =>
    rw [upTo_succ, List.length_cons, List.length_append, ih, Nat.succ_mul]
    omega

end Instr

theorem lt_of_instr {p : List Instr} {i : Nat} {x : Instr} (h : p[i]? = some x) : i < p.length :=
  (List.getElem?_eq_some_iff.1 h).1

/-! ## Carrying out a language -/

/-- `b` is `a` after a match of `M`, at instruction `k`. -/
def Passed (M : Lang) (k : Nat) (a b : Config) : Prop :=
  ∃ t g, a.after = t ++ b.after ∧ b.before = a.before ++ t ∧ M a.before t b.after g ∧
    b.thread.next = k ∧ b.thread.opened = a.thread.opened ∧
    b.thread.groups (a.before ++ a.after) = g ++ a.thread.groups (a.before ++ a.after)

/-- The instructions from `i` on carry out `M` and lead to `k`: whoever comes to `i` and finishes
has matched `M` when coming to `k`, and whoever can match `M` and finish from `k` can finish from
`i`. -/
structure Realizes (p : List Instr) (M : Lang) (i k : Nat) : Prop where
  leave : ∀ {n a f}, a.thread.next = i → f.Done p → Steps p n a f →
    ∃ m ≤ n, ∃ b, Passed M k a b ∧ Steps p m b f
  enter : ∀ {l t r g}, M l t r g → Finishes p (l ++ t).getLast? r k →
    Finishes p l.getLast? (t ++ r) i

theorem Passed.next {M : Lang} {k : Nat} {a b : Config} (h : Passed M k a b) :
    b.thread.next = k := by
  obtain ⟨_, _, _, _, _, hk, _⟩ := h
  exact hk

/-- A match followed by a match is a match of the sequence, and what both bind is bound. -/
theorem Passed.trans {M N : Lang} {j k : Nat} {a b c : Config} (h : Passed M j a b)
    (h' : Passed N k b c) : Passed (M.seq N) k a c := by
  obtain ⟨t, g, ha, hb, hM, -, ho, hg⟩ := h
  obtain ⟨t', g', hb', hc, hN, hk, ho', hg'⟩ := h'
  -- the bound texts are cut out of the whole text, which is the same before and after
  have hs : b.before ++ b.after = a.before ++ a.after := by rw [hb, ha, List.append_assoc]
  refine ⟨t ++ t', g' ++ g, ?_, ?_, ?_, hk, ho'.trans ho, ?_⟩
  · rw [ha, hb', List.append_assoc]
  · rw [hc, hb, List.append_assoc]
  · exact ⟨t, t', g, g', rfl, rfl, hb' ▸ hM, hb ▸ hN⟩
  · rw [← hs, hg', hs, hg, List.append_assoc]

/-- A step that neither takes text nor binds any matches nothing. -/
theorem Passed.stay {a : Config} {t : Thread} {k : Nat} (hk : t.next = k)
    (ho : t.opened = a.thread.opened) (hs : t.spans = a.thread.spans) :
    Passed .nil k a ⟨t, a.before, a.after⟩ :=
  ⟨[], [], by simp, by simp, ⟨rfl, rfl⟩, hk, ho, by simp [Thread.groups, hs]⟩

/-- What has matched a language has matched any that holds more. -/
theorem Passed.weaken {M N : Lang} {k : Nat} {a b : Config} (h : Passed M k a b)
    (hMN : ∀ {l t r g}, M l t r g → N l t r g) : Passed N k a b := by
  obtain ⟨t, g, ha, hb, hM, hrest⟩ := h
  exact ⟨t, g, ha, hb, hMN hM, hrest⟩

namespace Realizes

variable {p : List Instr} {M N : Lang} {i j k : Nat}

theorem nil : Realizes p .nil i i where
  leave {n a _} ha _ hs := ⟨n, Nat.le_refl n, a, .stay ha rfl rfl, hs⟩
  enter := by
    rintro l t r g ⟨rfl, rfl⟩ hf
    simpa using hf

/-- Code behind code carries out the sequence. -/
theorem seq (hM : Realizes p M i j) (hN : Realizes p N j k) : Realizes p (M.seq N) i k where
  leave := by
    intro n a f ha hf hs
    obtain ⟨m, hm, b, hab, hs⟩ := hM.leave ha hf hs
    obtain ⟨m', hm', c, hbc, hs⟩ := hN.leave hab.next hf hs
    exact ⟨m', Nat.le_trans hm' hm, c, hab.trans hbc, hs⟩
  enter := by
    rintro l _ r _ ⟨t₁, t₂, g₁, g₂, rfl, rfl, h₁, h₂⟩ hf
    rw [List.append_assoc]
    refine hM.enter h₁ (hN.enter h₂ ?_)
    rwa [List.append_assoc]

/-- What code carries out depends on the language only, not on how it is written. -/
theorem congr (h : Realizes p M i k) (hMN : ∀ {l t r g}, M l t r g ↔ N l t r g) :
    Realizes p N i k where
  leave ha hf hs :=
    let ⟨m, hm, b, hab, hs⟩ := h.leave ha hf hs
    ⟨m, hm, b, hab.weaken hMN.1, hs⟩
  enter hN hf := h.enter (hMN.2 hN) hf

/-! ### Single instructions -/

/-- An instruction that takes a character carries out its set. -/
theorem take {s : CharSet} (hi : p[i]? = some (.take s)) :
    Realizes p (Expr.set s).Matches i (i + 1) where
  leave := by
    intro n a f ha hf hs
    obtain ⟨m, b, rfl, hstep, hs⟩ := hs.exists_step hf (ha ▸ lt_of_instr hi)
    refine ⟨m, Nat.le_succ m, b, ?_, hs⟩
    cases hstep with
    | take hi' hc =>
      rw [ha, hi] at hi'
      cases hi'
      exact ⟨[_], [], rfl, rfl, ⟨_, rfl, hc, rfl⟩, congrArg (· + 1) ha, rfl, rfl⟩
    | way hi' ht =>
      rw [ha, hi] at hi'
      cases hi'
      simp [Instr.ways] at ht
  enter := by
    rintro l _ r _ ⟨c, rfl, hc, rfl⟩ hf
    exact .take hi hc (by simpa using hf)

/-- What an instruction that takes no character leads to. -/
theorem way_of_step {x : Instr} (hi : p[i]? = some x) (hx : ∀ s, x ≠ .take s) {a b : Config}
    (ha : a.thread.next = i) (hstep : Step p a b) :
    ∃ t ∈ x.ways a.before.getLast? a.after.head? a.before.length a.thread,
      b = ⟨t, a.before, a.after⟩ := by
  cases hstep with
  | take hi' _ =>
    rw [ha, hi] at hi'
    exact absurd (Option.some.inj hi') (hx _)
  | way hi' ht =>
    rw [ha, hi] at hi'
    cases hi'
    exact ⟨_, ht, rfl⟩

/-- An assertion carries out itself: it leads on when it holds and nowhere otherwise. -/
theorem look {c : Look} (hi : p[i]? = some (.look c)) :
    Realizes p (Expr.look c).Matches i (i + 1) where
  leave := by
    intro n a f ha hf hs
    obtain ⟨m, b, rfl, hstep, hs⟩ := hs.exists_step hf (ha ▸ lt_of_instr hi)
    refine ⟨m, Nat.le_succ m, b, ?_, hs⟩
    obtain ⟨t, ht, rfl⟩ := way_of_step hi (by simp) ha hstep
    simp only [Instr.ways] at ht
    split at ht
    · next hc =>
      rw [List.mem_singleton] at ht
      subst ht
      exact ⟨[], [], by simp, by simp, ⟨rfl, rfl, hc⟩, congrArg (· + 1) ha, rfl, rfl⟩
    · simp at ht
  enter := by
    rintro l _ r _ ⟨rfl, rfl, hc⟩ hf
    refine .way (t := ⟨i, [], []⟩) (j := 0) hi rfl (u := ⟨i + 1, [], []⟩) ?_ (by simpa using hf)
    simp only [List.nil_append, Instr.ways, hc, if_true]
    exact List.mem_singleton.2 rfl

/-- An instruction that leads to one of two places and changes nothing else. -/
theorem fork {x : Instr} {j₁ j₂ : Nat} (hi : p[i]? = some x) (hx : ∀ s, x ≠ .take s)
    (hw : ∀ {b a o t t'}, t.next = i →
      (t' ∈ x.ways b a o t ↔ t' = t.goTo j₁ ∨ t' = t.goTo j₂))
    (hM : Realizes p M j₁ k) (hN : Realizes p N j₂ k) : Realizes p (M.or N) i k where
  leave := by
    intro n a f ha hf hs
    obtain ⟨m, b, rfl, hstep, hs⟩ := hs.exists_step hf (ha ▸ lt_of_instr hi)
    obtain ⟨t, ht, rfl⟩ := way_of_step hi hx ha hstep
    -- either place passes on what it matched; the decision itself matches nothing
    rcases (hw ha).1 ht with rfl | rfl
    · obtain ⟨m', hm, b, hab, hs⟩ := hM.leave rfl hf hs
      refine ⟨m', Nat.le_succ_of_le hm, b, ?_, hs⟩
      exact Passed.weaken (M := M) hab .inl
    · obtain ⟨m', hm, b, hab, hs⟩ := hN.leave rfl hf hs
      refine ⟨m', Nat.le_succ_of_le hm, b, ?_, hs⟩
      exact Passed.weaken (M := N) hab .inr
  enter := by
    -- which thread takes the way does not matter, so one that has bound nothing is taken
    rintro l t r g (h | h) hf
    · refine .way (t := ⟨i, [], []⟩) (j := 0) hi rfl ((hw rfl).2 (.inl rfl)) ?_
      exact hM.enter h hf
    · refine .way (t := ⟨i, [], []⟩) (j := 0) hi rfl ((hw rfl).2 (.inr rfl)) ?_
      exact hN.enter h hf

/-- The order of two alternatives says which is preferred, not what is matched. -/
theorem swap (h : Realizes p (M.or N) i k) : Realizes p (N.or M) i k :=
  h.congr Or.comm

/-- An instruction that leads to one place and changes nothing else. -/
theorem goTo {x : Instr} (hi : p[i]? = some x) (hx : ∀ s, x ≠ .take s)
    (hw : ∀ {b a o t}, t.next = i → x.ways b a o t = [t.goTo j]) (hM : Realizes p M j k) :
    Realizes p M i k :=
  (fork hi hx (fun h => by rw [hw h]; simp) hM hM).congr (or_self_iff ..)

/-- A decision leads to what comes next and behind what it may leave out, greedy or not. -/
theorem mem_ways_skip {greedy : Bool} {n o : Nat} {b a : Option Char} {t t' : Thread}
    (h : t.next = i) :
    t' ∈ (Instr.skip greedy n).ways b a o t ↔ t' = t.goTo (i + 1) ∨ t' = t.goTo (i + 1 + n) := by
  subst h
  cases greedy <;> simp [Instr.ways, Thread.step, or_comm]

/-- A decision carries out the choice between what it may leave out and what comes behind. -/
theorem skip {greedy : Bool} {n : Nat} (hi : p[i]? = some (.skip greedy n))
    (hM : Realizes p M (i + 1) k) (hN : Realizes p N (i + 1 + n) k) :
    Realizes p (M.or N) i k :=
  fork hi (by simp) mem_ways_skip hM hN

/-- A jump carries out what it leads to. -/
theorem jump {n : Nat} (hi : p[i]? = some (.jump n)) (hM : Realizes p M (i + 1 + n) k) :
    Realizes p M i k :=
  goTo hi (by simp) (fun h => by subst h; rfl) hM

/-- A group binds the text that its body matches. -/
theorem group {name : Text} (ho : p[i]? = some .opened) (hM : Realizes p M (i + 1) j)
    (hc : p[j]? = some (.closed name)) :
    Realizes p (fun l t r g => ∃ h, M l t r h ∧ g = (name, t) :: h) i (j + 1) where
  leave := by
    intro n a f ha hf hs
    obtain ⟨m, b, rfl, hstep, hs⟩ := hs.exists_step hf (ha ▸ lt_of_instr ho)
    obtain ⟨t, ht, rfl⟩ := way_of_step ho (by simp) ha hstep
    rw [Instr.ways, List.mem_singleton] at ht
    subst ht
    -- the body, which leaves the opened group alone, and then the closing instruction
    obtain ⟨m', hm', c, ⟨t, g, hat, hct, hmatch, hj, hopen, hg⟩, hs⟩ :=
      hM.leave (congrArg (· + 1) ha) hf hs
    obtain ⟨m'', d, rfl, hstep, hs⟩ := hs.exists_step hf (hj ▸ lt_of_instr hc)
    obtain ⟨u, hu, rfl⟩ := way_of_step hc (by simp) hj hstep
    rw [Instr.ways, List.mem_singleton] at hu
    subst hu
    dsimp only at hat hct hg
    refine ⟨m'', by omega, ⟨(c.thread.closeAt name c.before.length).step, c.before, c.after⟩,
      ⟨t, (name, t) :: g, hat, hct, ⟨g, hmatch, rfl⟩, ?_⟩, hs⟩
    -- what the thread has cut out is the text between the two places
    have htext : ((a.before ++ a.after).drop a.before.length).take
        (c.before.length - a.before.length) = t := by
      rw [List.drop_left, hat, hct, List.length_append, Nat.add_sub_cancel_left, List.take_left]
    obtain ⟨hnext, hopened, hgroups⟩ := Thread.closeAt_of_opened name c.before.length hopen
    refine ⟨?_, hopened, ?_⟩
    · exact congrArg (· + 1) (hnext.trans hj)
    · exact (hgroups _).trans (by rw [htext, hg]; rfl)
  enter := by
    rintro l t r _ ⟨h, hmatch, rfl⟩ hf
    refine .way (t := ⟨i, [], []⟩) (j := 0) ho rfl (u := ⟨i + 1, [0], []⟩) ?_ ?_
    · exact List.mem_singleton.2 rfl
    · refine hM.enter hmatch (.way (t := ⟨j, [], []⟩) (j := 0) hc rfl (u := ⟨j + 1, [], []⟩) ?_ hf)
      exact List.mem_singleton.2 rfl

/-! ### Repetition -/

/-- Behind code that carries out `M`, an instruction that leads back to it or on makes it carry out
`M` any positive number of times. -/
theorem plus_of_fork {x : Instr} (hM : Realizes p M i j) (hj : p[j]? = some x)
    (hx : ∀ s, x ≠ .take s)
    (hw : ∀ {b a o t t'}, t.next = j →
      (t' ∈ x.ways b a o t ↔ t' = t.goTo i ∨ t' = t.goTo (j + 1))) :
    Realizes p (Lang.plus M) i (j + 1) where
  leave := by
    intro n
    -- every round takes at least the step at `j`
    induction n using Nat.strongRecOn with
    | ind n ih =>
      intro a f ha hf hs
      obtain ⟨m, hm, b, hab, hs⟩ := hM.leave ha hf hs
      obtain ⟨m', c, rfl, hstep, hs⟩ := hs.exists_step hf (hab.next ▸ lt_of_instr hj)
      obtain ⟨t, ht, rfl⟩ := way_of_step hj hx hab.next hstep
      -- either the code is entered once more, or this round was the last
      rcases (hw hab.next).1 ht with rfl | rfl
      · obtain ⟨m'', hm'', c, hbc, hs⟩ := ih m' (by omega) rfl hf hs
        have hbc : Passed (Lang.plus M) (j + 1) b c := hbc
        refine ⟨m'', by omega, c, (hab.trans hbc).weaken ?_, hs⟩
        rintro l _ r _ ⟨t₁, t₂, g₁, g₂, rfl, rfl, h₁, ⟨n, h₂⟩⟩
        exact ⟨n + 1, t₁, t₂, g₁, g₂, rfl, rfl, h₁, h₂⟩
      · have hstay := Passed.stay (a := b) (t := b.thread.goTo (j + 1)) rfl rfl rfl
        exact ⟨m', by omega, _, (hab.trans hstay).weaken fun h => ⟨0, h⟩, hs⟩
  enter := by
    rintro l t r g ⟨n, h⟩ hf
    -- the last round goes on, every other one goes back
    induction n generalizing l t g with
    | zero =>
      rw [Lang.copies_one] at h
      exact hM.enter h (.way (t := ⟨j, [], []⟩) (j := 0) hj rfl ((hw rfl).2 (.inr rfl)) hf)
    | succ n ih =>
      obtain ⟨t₁, t₂, g₁, g₂, rfl, rfl, h₁, h₂⟩ := h
      rw [List.append_assoc]
      refine hM.enter h₁ (.way (t := ⟨j, [], []⟩) (j := 0) hj rfl ((hw rfl).2 (.inl rfl)) ?_)
      exact ih h₂ (by rwa [List.append_assoc])

/-- Code followed by a decision to go back is matched once or more. -/
theorem again {greedy : Bool} {n : Nat} (hM : Realizes p M i (i + n))
    (hj : p[i + n]? = some (.again greedy n)) : Realizes p (Lang.plus M) i (i + n + 1) :=
  plus_of_fork hM hj (by simp) fun h => by
    cases greedy <;> simp [Instr.ways, Thread.step, h, or_comm]

/-- A decision whether `M` is to be matched at all, before code that comes back to it. -/
theorem skip_back {greedy : Bool} {n : Nat} (hi : p[i]? = some (.skip greedy (n + 1)))
    (hM : Realizes p M (i + 1) (i + 1 + n)) (hj : p[i + 1 + n]? = some (.back (n + 1))) :
    Realizes p (Lang.star M) i (i + n + 2) where
  leave := by
    intro m
    -- every round takes at least the step at `i`
    induction m using Nat.strongRecOn with
    | ind m ih =>
      intro a f ha hf hs
      obtain ⟨m₁, b, rfl, hstep, hs⟩ := hs.exists_step hf (ha ▸ lt_of_instr hi)
      obtain ⟨t, ht, rfl⟩ := way_of_step hi (by simp) ha hstep
      -- a round and what comes after it, or no round at all
      rcases (mem_ways_skip ha).1 ht with rfl | rfl
      · obtain ⟨m₂, hm₂, c, hac, hs⟩ := hM.leave rfl hf hs
        have hac : Passed M (i + 1 + n) a c := hac
        obtain ⟨m₃, d, rfl, hstep, hs⟩ := hs.exists_step hf (hac.next ▸ lt_of_instr hj)
        obtain ⟨t, ht, rfl⟩ := way_of_step hj (by simp) hac.next hstep
        rw [Instr.ways, List.mem_singleton] at ht
        subst ht
        have hback : c.thread.next - (n + 1) = i := by rw [hac.next]; omega
        obtain ⟨m₄, hm₄, d, hcd, hs⟩ := ih m₃ (by omega) hback hf hs
        have hcd : Passed (Lang.star M) (i + n + 2) c d := hcd
        refine ⟨m₄, by omega, d, (hac.trans hcd).weaken ?_, hs⟩
        rintro l t r g ⟨t₁, t₂, g₁, g₂, rfl, rfl, h₁, ⟨k, h₂⟩⟩
        exact ⟨k + 1, t₁, t₂, g₁, g₂, rfl, rfl, h₁, h₂⟩
      · have hk : i + 1 + (n + 1) = i + n + 2 := by omega
        have hstay := Passed.stay (a := a) (t := a.thread.goTo (i + 1 + (n + 1))) hk rfl rfl
        exact ⟨m₁, by omega, _, hstay.weaken fun h => ⟨0, h⟩, hs⟩
  enter := by
    rintro l t r g ⟨k, h⟩ hf
    induction k generalizing l t g with
    | zero =>
      obtain ⟨rfl, rfl⟩ := h
      refine .way (t := ⟨i, [], []⟩) (j := 0) hi rfl ((mem_ways_skip rfl).2 (.inr rfl)) ?_
      simpa [Thread.goTo, show i + 1 + (n + 1) = i + n + 2 by omega] using hf
    | succ k ih =>
      obtain ⟨t₁, t₂, g₁, g₂, rfl, rfl, h₁, h₂⟩ := h
      rw [List.append_assoc]
      refine .way (t := ⟨i, [], []⟩) (j := 0) hi rfl ((mem_ways_skip rfl).2 (.inl rfl)) ?_
      refine hM.enter h₁ (.way (t := ⟨i + 1 + n, [], []⟩) (j := 0) hj rfl
        (u := ⟨i + 1 + n - (n + 1), [], []⟩) (List.mem_singleton.2 rfl) ?_)
      rw [show i + 1 + n - (n + 1) = i by omega]
      exact ih h₂ (by rwa [List.append_assoc])

/-- Copies of some code, one after the other. -/
theorem copies {code : List Instr} (h : ∀ {i}, At p i code → Realizes p M i (i + code.length))
    {n i : Nat} (hp : At p i (Instr.copies n code)) :
    Realizes p (M.copies n) i (i + (Instr.copies n code).length) := by
  induction n generalizing i with
  | zero => exact nil
  | succ n ih =>
    have hc : Instr.copies (n + 1) code = code ++ Instr.copies n code := rfl
    -- the first copy stands where the program of the copies does, the others behind it
    rw [hc, at_append] at hp
    rw [hc, List.length_append, ← Nat.add_assoc]
    exact (h hp.1).seq (ih hp.2)

/-- Copies of some code, each behind a decision to leave out all that follow. -/
theorem upTo {code : List Instr} (h : ∀ {i}, At p i code → Realizes p M i (i + code.length))
    {greedy : Bool} {n i : Nat} (hp : At p i (Instr.upTo greedy n code)) :
    Realizes p (M.upTo n) i
      (i + (Instr.upTo greedy n code).length) := by
  induction n generalizing i with
  | zero =>
    refine nil.congr fun {l t r g} => ⟨fun hn => ⟨0, Nat.le_refl 0, hn⟩, ?_⟩
    rintro ⟨k, hk, hn⟩
    rwa [Nat.le_zero.1 hk] at hn
  | succ n ih =>
    have hlen := Instr.length_upTo greedy n code
    have hc := Instr.upTo_succ greedy n code
    rw [hc, at_cons, at_append] at hp
    rw [hc, List.length_cons, List.length_append, hlen]
    have hrest := (h hp.2.1).seq (ih hp.2.2)
    rw [hlen, show i + 1 + code.length + n * (code.length + 1) =
      i + (code.length + n * (code.length + 1) + 1) by omega] at hrest
    refine (skip hp.1 hrest (k := _) (N := .nil) ?_).congr fun {l t r g} => ⟨?_, ?_⟩
    · rw [show i + 1 + (code.length + n * (code.length + 1)) =
        i + (code.length + n * (code.length + 1) + 1) by omega]
      exact nil
    · rintro (⟨t₁, t₂, g₁, g₂, rfl, rfl, h₁, k, hk, h₂⟩ | h₀)
      · exact ⟨k + 1, by omega, t₁, t₂, g₁, g₂, rfl, rfl, h₁, h₂⟩
      · exact ⟨0, Nat.zero_le _, h₀⟩
    · rintro ⟨k, hk, hk'⟩
      cases k with
      | zero => exact .inr hk'
      | succ k =>
        obtain ⟨t₁, t₂, g₁, g₂, rfl, rfl, h₁, h₂⟩ := hk'
        exact .inl ⟨t₁, t₂, g₁, g₂, rfl, rfl, h₁, k, by omega, h₂⟩

end Realizes

/-! ## The program of an expression -/

namespace Expr

open Realizes

variable {p : List Instr} {i : Nat} {lo : Nat} {hi : Option Nat} {greedy : Bool} {e : Expr}

/-- The program of a repetition carries it out when its copies do. -/
theorem realizes_times (h : ∀ {i}, At p i e.code → Realizes p e.Matches i (i + e.code.length))
    (hp : At p i (times lo hi greedy e).code) :
    Realizes p (times lo hi greedy e).Matches i (i + (times lo hi greedy e).code.length) := by
  match lo, hi with
  | 0, none =>
    rw [Matches, Lang.times_zero_none]
    by_cases ht : e.takesText
    · simp only [code, ht, if_true] at hp ⊢
      rw [List.cons_append, at_cons, at_append, at_cons] at hp
      have := skip_back hp.1 (h hp.2.1) hp.2.2.1
      simpa [Nat.add_assoc] using this
    · simp only [code, ht, Bool.false_eq_true, if_false] at hp ⊢
      rw [List.cons_append, at_cons, at_append, at_cons] at hp
      -- a body that takes no text is entered once, and repeated behind itself
      have hplus := (h hp.2.1).again hp.2.2.1
      have hend : i + 1 + e.code.length + 1 = i + 1 + (e.code.length + 1) := by omega
      rw [hend] at hplus
      have hskip := (skip hp.1 hplus nil).swap
      rw [Lang.nil_or_plus] at hskip
      simpa [Nat.add_assoc, Nat.add_comm 1] using hskip
  | lo + 1, none =>
    rw [Matches, Lang.times_succ_none]
    have hc : (times (lo + 1) none greedy e).code =
        Instr.copies lo e.code ++ (e.code ++ [.again greedy e.code.length]) := by
      rw [code, Instr.copies_succ, List.append_assoc]
    rw [hc, at_append, at_append, at_cons] at hp
    have := (copies h hp.1).seq ((h hp.2.1).again hp.2.2.1)
    simpa [hc, Nat.add_assoc] using this
  | lo, some hi =>
    rw [Matches, Lang.times_some]
    have hc : (times lo (some hi) greedy e).code =
        Instr.copies lo e.code ++ Instr.upTo greedy (hi - lo) e.code := by
      cases lo <;> rfl
    rw [hc, at_append] at hp
    have := (copies h hp.1).seq (upTo h hp.2)
    simpa [hc, Nat.add_assoc] using this

/-- The program of an expression, wherever it stands, carries out its language. -/
theorem realizes_code (e : Expr) (hp : At p i e.code) :
    Realizes p e.Matches i (i + e.code.length) := by
  induction e generalizing i with
  | empty => exact .nil
  | set s => exact .take (at_cons.1 hp).1
  | look l => exact .look (at_cons.1 hp).1
  | seq a b iha ihb =>
    rw [code, at_append] at hp
    rw [code, List.length_append, ← Nat.add_assoc]
    exact (iha hp.1).seq (ihb hp.2)
  | alt a b iha ihb =>
    rw [code, List.cons_append, at_cons, at_append, at_cons] at hp
    have hb := ihb hp.2.2.2
    have hend : i + 1 + a.code.length + 1 + b.code.length =
        i + 1 + a.code.length + (b.code.length + 1) := by omega
    rw [hend] at hb
    have hjump := Realizes.jump hp.2.2.1 (M := .nil)
      (k := i + 1 + a.code.length + (b.code.length + 1)) ?_
    · have ha := (iha hp.2.1).seq hjump
      rw [Lang.seq_nil] at ha
      have := Realizes.skip hp.1 ha hb
      simpa [Matches, code, Nat.add_assoc, Nat.add_comm 1] using this
    · rw [← hend]
      exact Realizes.nil
  | times lo hi greedy e ih => exact realizes_times ih hp
  | group name e ih =>
    cases name with
    | none => exact ih hp
    | some name =>
      rw [code, List.cons_append, at_cons, at_append, at_cons] at hp
      have := Realizes.group hp.1 (ih hp.2.1) hp.2.2.1
      simpa [Matches, code, Nat.add_assoc, Nat.add_comm, Nat.add_left_comm] using this

end Expr

end Routing.Regex
