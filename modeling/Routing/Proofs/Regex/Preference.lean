import Routing.Proofs.Regex.Search

/-!
# The search finds the preferred match

Of the ways that an instruction leads, the first one from where a thread can still finish is
preferred. Following these ways a thread comes to one match, and this is what the search finds: what
is explored before is without hope, and no instruction is come to twice on the way to the next
character.

* `Hopeless` — no thread at an instruction can finish
* `Chooses` — the match that a thread comes to by the preferred ways
* `Chooses.unique` — the number of ways up to the next character depends on the place alone
* `search_of_chooses` — the search finds the match of the first thread that can finish
-/

namespace Routing.Regex

variable {p : List Instr} {b : Option Char} {s : Text}

/-! ## Finishing, told by instructions -/

/-- From an instruction that takes no character a thread can finish when it can from one of those
that it leads to. -/
theorem finishes_iff_way {i : Nat} {x : Instr} (hi : p[i]? = some x) (hx : ∀ c, x ≠ .take c)
    {t : Thread} (ht : t.next = i) (o : Nat) :
    Finishes p b s i ↔ ∃ u ∈ x.ways b s.head? o t, Finishes p b s u.next := by
  constructor
  · intro h
    cases h with
    | done h => exact absurd (lt_of_instr hi) (Nat.not_lt.2 h)
    | take hi' =>
      rw [hi] at hi'
      exact absurd (Option.some.inj hi') (hx _)
    | @way _ _ _ j _ t' u hi' ht' hw hf =>
      rw [hi] at hi'
      cases hi'
      -- the ways lead to the same places for every thread that stands here
      have hmap : (x.ways b s.head? o t).map (·.next) = (x.ways b s.head? j t').map (·.next) :=
        Instr.map_next_ways (ht.trans ht'.symm)
      have hmem : u.next ∈ (x.ways b s.head? o t).map (·.next) := by
        rw [hmap]
        exact List.mem_map_of_mem hw
      obtain ⟨v, hv, hvn⟩ := List.mem_map.1 hmem
      exact ⟨v, hv, hvn ▸ hf⟩
  · rintro ⟨u, hu, hf⟩
    exact .way hi ht hu hf

/-! ## Preferred ways -/

/-- None of the threads can finish from this place. -/
def Hopeless (p : List Instr) (l r : Text) (threads : List Thread) : Prop :=
  ∀ t ∈ threads, ¬ Finishes p l.getLast? r t.next

/-- By the preferred ways a thread at a place comes to a match, and takes its next character, or has
matched, after `n` of them. -/
inductive Chooses (p : List Instr) : Nat → Config → Thread → Prop
  | done {t l r} (h : p.length ≤ t.next) : Chooses p 0 ⟨t, l, r⟩ t
  | take {t l c r x n f} (hi : p[t.next]? = some (.take x)) (hc : x.mem c = true)
    (h : Chooses p n ⟨t.step, l ++ [c], r⟩ f) : Chooses p 0 ⟨t, l, c :: r⟩ f
  | way {t l r x dead u rest n f} (hi : p[t.next]? = some x)
    (hw : x.ways l.getLast? r.head? l.length t = dead ++ u :: rest) (hdead : Hopeless p l r dead)
    (h : Chooses p n ⟨u, l, r⟩ f) : Chooses p (n + 1) ⟨t, l, r⟩ f

/-- The first way is preferred where a thread can go on from it. -/
theorem Chooses.first {t u f : Thread} {l r : Text} {x : Instr} {rest : List Thread} {n : Nat}
    (hi : p[t.next]? = some x) (hw : x.ways l.getLast? r.head? l.length t = u :: rest)
    (h : Chooses p n ⟨u, l, r⟩ f) : Chooses p (n + 1) ⟨t, l, r⟩ f := by
  have hdead : Hopeless p l r [] := fun t ht => absurd ht List.not_mem_nil
  exact .way hi hw hdead h

/-- A thread that comes to a match by the preferred ways can finish. -/
theorem Chooses.finishes {n : Nat} {a : Config} {f : Thread} (h : Chooses p n a f) :
    Finishes p a.before.getLast? a.after a.thread.next := by
  induction h with
  | done h => exact .done h
  | take hi hc _ ih =>
    rw [List.getLast?_concat] at ih
    exact .take hi hc ih
  | @way t l r x dead u rest n f hi hw _ _ ih =>
    -- the thread that is gone on with is one of those that the instruction leads to
    have hu : u ∈ x.ways l.getLast? r.head? l.length t := by
      rw [hw]
      exact List.mem_append_right _ List.mem_cons_self
    exact .way hi rfl hu ih

/-- The first thread of a list that is not without hope stands at the same instruction as that of
another list over the same instructions. -/
theorem next_of_hopeless {l r : Text} {dead dead' rest rest' : List Thread} {u u' : Thread}
    (hdead : Hopeless p l r dead) (hdead' : Hopeless p l r dead')
    (hu : Finishes p l.getLast? r u.next) (hu' : Finishes p l.getLast? r u'.next)
    (h : (dead ++ u :: rest).map (·.next) = (dead' ++ u' :: rest').map (·.next)) :
    u.next = u'.next := by
  induction dead generalizing dead' with
  | nil =>
    cases dead' with
    | nil => exact (List.cons.inj h).1
    | cons d' dead' =>
      have hd : u.next = d'.next := (List.cons.inj h).1
      exact absurd (hd ▸ hu) (hdead' d' List.mem_cons_self)
  | cons d dead ih =>
    obtain ⟨hd, hdead⟩ := List.forall_mem_cons.1 hdead
    cases dead' with
    | nil =>
      have hd' : d.next = u'.next := (List.cons.inj h).1
      exact absurd (hd' ▸ hu') hd
    | cons d' dead' =>
      exact ih hdead (List.forall_mem_cons.1 hdead').2 (List.cons.inj h).2

/-- Threads at the same instruction of a place have as many ways before them. -/
theorem Chooses.unique {n m : Nat} {a b : Config} {f g : Thread} (ha : Chooses p n a f)
    (hb : Chooses p m b g) (hnext : a.thread.next = b.thread.next) (hl : a.before = b.before)
    (hr : a.after = b.after) : n = m := by
  induction ha generalizing m b with
  | @done t l r h =>
    obtain ⟨u, l', r'⟩ := b
    cases hb with
    | done | take => rfl
    | way hi => exact absurd (hnext ▸ lt_of_instr hi) (Nat.not_lt.2 h)
  | @take t l c r x n f hi hc _ _ =>
    obtain ⟨u, l', r'⟩ := b
    cases hb with
    | done | take => rfl
    | way hi' hw =>
      dsimp only at hnext
      rw [← hnext, hi] at hi'
      cases hi'
      simp [Instr.ways] at hw
  | @way t l r x dead u rest n f hi hw hdead h ih =>
    obtain ⟨t', l', r'⟩ := b
    dsimp only at hnext hl hr
    subst hl hr
    cases hb with
    | done h => exact absurd (hnext ▸ lt_of_instr hi) (Nat.not_lt.2 h)
    | take hi' =>
      rw [← hnext, hi] at hi'
      cases hi'
      simp [Instr.ways] at hw
    | way hi' hw' hdead' h' =>
      rw [← hnext, hi] at hi'
      cases hi'
      -- both threads are led to the same places, so the first of them with hope is the same
      have hmap : (x.ways l.getLast? r.head? l.length t).map (·.next) =
          (x.ways l.getLast? r.head? l.length t').map (·.next) := Instr.map_next_ways hnext
      rw [hw, hw'] at hmap
      rw [ih h' (next_of_hopeless hdead hdead' h.finishes h'.finishes hmap) rfl rfl]

/-! ## Exploring -/

/-- The threads found so far stay the first ones. -/
theorem explore_eq_append (program : Array Instr) (b a : Option Char) (o fuel : Nat)
    (threads : List Thread) (seen : NatSet) (found : List Thread) :
    ∃ more, explore program b a o fuel threads seen found = found.reverse ++ more := by
  induction fuel generalizing threads seen found with
  | zero => exact ⟨[], (List.append_nil _).symm⟩
  | succ fuel ih =>
    cases threads with
    | nil => exact ⟨[], (List.append_nil _).symm⟩
    | cons t ts =>
      have hfound (seen : NatSet) :
          ∃ more, explore program b a o fuel ts seen (t :: found) = found.reverse ++ more := by
        obtain ⟨more, hmore⟩ := ih ts seen (t :: found)
        exact ⟨t :: more, by rw [hmore, List.reverse_cons, List.append_assoc]; rfl⟩
      -- whatever happens to the thread, what was found before stays in front
      rw [explore]
      split
      · exact ih _ _ _
      · dsimp only
        split
        · exact hfound _
        · exact hfound _
        · exact ih _ _ _

/-- A thread that is found stands behind those found before it. -/
theorem explore_found (program : Array Instr) (b a : Option Char) (o fuel : Nat)
    (threads : List Thread) (seen : NatSet) (t : Thread) (found : List Thread) :
    ∃ after, explore program b a o fuel threads seen (t :: found) = found.reverse ++ t :: after := by
  obtain ⟨more, hmore⟩ := explore_eq_append program b a o fuel threads seen (t :: found)
  rw [List.reverse_cons, List.append_assoc] at hmore
  exact ⟨more, hmore⟩

/-- What has been come to before a thread with `n` ways before it: instructions without hope, and
those that more than `n` ways lead on from. -/
def Beyond (p : List Instr) (l r : Text) (n : Nat) (seen : NatSet) : Prop :=
  ∀ i, seen.mem i = true → ¬ Finishes p l.getLast? r i ∨
    ∃ m t f, t.next = i ∧ n < m ∧ Chooses p m ⟨t, l, r⟩ f

/-- Coming to an instruction without hope, or with more ways before it, changes nothing. -/
theorem Beyond.insert {l r : Text} {n : Nat} {seen : NatSet} (h : Beyond p l r n seen) {i : Nat}
    (hi : ¬ Finishes p l.getLast? r i ∨ ∃ m t f, t.next = i ∧ n < m ∧ Chooses p m ⟨t, l, r⟩ f) :
    Beyond p l r n (seen.insert i) := by
  intro j hj
  rw [NatSet.mem_insert, Bool.or_eq_true, decide_eq_true_iff] at hj
  rcases hj with hj | rfl
  · exact h j hj
  · exact hi

/-- An instruction with `n` ways before it has not been come to. -/
theorem Beyond.not_mem {l r : Text} {n : Nat} {seen : NatSet} (h : Beyond p l r n seen)
    {t f : Thread} (ht : Chooses p n ⟨t, l, r⟩ f) : seen.mem t.next = false := by
  apply Bool.eq_false_iff.2
  intro hmem
  rcases h _ hmem with hno | ⟨m, u, g, hu, hlt, hg⟩
  · exact hno ht.finishes
  · exact absurd (ht.unique hg hu.symm rfl rfl) (Nat.ne_of_lt hlt)

/-- One way on, the instruction that was left has more ways before it. -/
theorem Beyond.way {l r : Text} {n : Nat} {seen : NatSet} (h : Beyond p l r (n + 1) seen)
    {t f : Thread} (ht : Chooses p (n + 1) ⟨t, l, r⟩ f) :
    Beyond p l r n (seen.insert t.next) := by
  apply Beyond.insert
  · intro i hi
    refine (h i hi).imp_right ?_
    rintro ⟨m, u, g, hu, hlt, hg⟩
    exact ⟨m, u, g, hu, Nat.lt_of_succ_lt hlt, hg⟩
  · exact .inr ⟨n + 1, t, f, rfl, Nat.lt_succ_self n, ht⟩

/-- Two lists of threads without hope make one. -/
theorem Hopeless.append {l r : Text} {ts us : List Thread} (hts : Hopeless p l r ts)
    (hus : Hopeless p l r us) : Hopeless p l r (ts ++ us) := by
  intro t ht
  rcases List.mem_append.1 ht with ht | ht
  · exact hts t ht
  · exact hus t ht

/-- Behind threads without hope, a thread is followed to where it takes its next character. -/
theorem explore_of_chooses {l r : Text} (fuel : Nat) {dead rest found : List Thread}
    {seen : NatSet} {n : Nat} {t f : Thread}
    (hfuel : (dead ++ t :: rest).length + 2 * (unseen p seen).length < fuel)
    (hdead : Hopeless p l r dead) (hfound : Hopeless p l r found)
    (hseen : Beyond p l r n seen) (h : Chooses p n ⟨t, l, r⟩ f) :
    ∃ before w after, explore p.toArray l.getLast? r.head? l.length fuel (dead ++ t :: rest) seen
        found = before ++ w :: after ∧ Hopeless p l r before ∧ Chooses p 0 ⟨w, l, r⟩ f := by
  induction fuel generalizing dead rest found seen n t with
  | zero => omega
  | succ fuel ih =>
    -- a thread without hope is dropped, found or followed, and what it adds is without hope again;
    -- with none of them left the thread itself is followed
    cases dead with
    | cons d dead =>
      obtain ⟨hd, hdead⟩ := List.forall_mem_cons.1 hdead
      rw [List.cons_append, List.length_cons] at hfuel
      rw [List.cons_append, explore, List.getElem?_toArray]
      by_cases hmem : seen.mem d.next
      · rw [if_pos hmem]
        exact ih (by omega) hdead hfound hseen h
      · rw [if_neg hmem]
        have hbeyond := hseen.insert (.inl hd)
        have hle := length_unseen_insert_le (p := p) seen d.next
        dsimp only
        split
        · exact ih (by omega) hdead (List.forall_mem_cons.2 ⟨hd, hfound⟩) hbeyond h
        · exact ih (by omega) hdead (List.forall_mem_cons.2 ⟨hd, hfound⟩) hbeyond h
        · next x hx hi =>
          have hless := length_unseen_insert_lt (lt_of_instr hi) (Bool.eq_false_iff.2 hmem)
          have hways := x.length_ways (b := l.getLast?) (a := r.head?) l.length d
          rw [← List.append_assoc]
          refine ih ?_ (Hopeless.append ?_ hdead) hfound hbeyond h
          · rw [List.append_assoc, List.length_append]
            omega
          · exact fun u hu hf => hd (.way hi rfl hu hf)
    | nil =>
      rw [List.nil_append, List.length_cons] at hfuel
      rw [List.nil_append, explore, List.getElem?_toArray,
        if_neg (Bool.eq_false_iff.1 (hseen.not_mem h))]
      have hreverse : Hopeless p l r found.reverse := fun u hu => hfound u (List.mem_reverse.1 hu)
      obtain ⟨after, hstop⟩ := explore_found p.toArray l.getLast? r.head? l.length fuel rest
        (seen.insert t.next) t found
      cases h with
      | done hdone =>
        rw [List.getElem?_eq_none hdone]
        exact ⟨_, _, after, hstop, hreverse, .done hdone⟩
      | take hi hc h =>
        rw [hi]
        exact ⟨_, _, after, hstop, hreverse, .take hi hc h⟩
      | @way _ _ _ x dead u rest' n _ hi hw hdead h =>
        have hway : Chooses p (n + 1) ⟨t, l, r⟩ f := .way hi hw hdead h
        have hless := length_unseen_insert_lt (lt_of_instr hi) (hseen.not_mem hway)
        have hways := x.length_ways (b := l.getLast?) (a := r.head?) l.length t
        -- the ways of the thread come before the others, so the one to go on with stands behind
        -- threads without hope
        have hlist : x.ways l.getLast? r.head? l.length t ++ rest =
            dead ++ u :: (rest' ++ rest) := by
          rw [hw, List.append_assoc]
          rfl
        have hlen := congrArg List.length hlist
        rw [List.length_append] at hlen
        have hfuel : (dead ++ u :: (rest' ++ rest)).length +
            2 * (unseen p (seen.insert t.next)).length < fuel := by omega
        have hgo := ih hfuel hdead hfound (hseen.way hway) h
        rw [← hlist] at hgo
        rw [hi]
        cases x with
        | take c => simp [Instr.ways] at hw
        | look | skip | again | jump | back | opened | closed => exact hgo

/-- Among the threads that wait at a place, the first with hope is where the preferred ways lead. -/
theorem waiting_of_chooses {l r : Text} {dead : List Thread} (rest : List Thread) {n : Nat}
    {t f : Thread} (hdead : Hopeless p l r dead) (h : Chooses p n ⟨t, l, r⟩ f) :
    ∃ before w after, waiting p.toArray l.getLast? r.head? l.length (dead ++ t :: rest) =
      before ++ w :: after ∧ Hopeless p l r before ∧ Chooses p 0 ⟨w, l, r⟩ f := by
  have hlen : (unseen p .empty).length ≤ p.length := by
    simpa only [unseen, List.length_range] using List.length_filter_le _ (List.range p.length)
  refine explore_of_chooses _ ?_ hdead (by simp [Hopeless]) ?_ h
  · rw [List.size_toArray]
    omega
  · intro i hi
    rw [NatSet.mem_empty] at hi
    cases hi

/-- Where no thread can finish, none of those that wait can. -/
theorem waiting_of_hopeless {l r : Text} {threads : List Thread} {o : Nat}
    (h : Hopeless p l r threads) :
    Hopeless p l r (waiting p.toArray l.getLast? r.head? o threads) :=
  waiting_of_closed (P := fun t => ¬ Finishes p l.getLast? r t.next)
    (fun hi hu ht hf => ht (.way hi rfl hu hf)) h

/-! ## Reading on -/

/-- A thread without hope has not matched. -/
theorem Hopeless.not_done {l r : Text} {threads : List Thread} (h : Hopeless p l r threads) :
    ∀ t ∈ threads, t.isDone p.toArray = false := by
  intro t ht
  apply Bool.eq_false_iff.2
  exact fun hdone => h t ht (.done (isDone_iff.1 hdone))

/-- Threads without hope bring no match. -/
theorem Hopeless.find? {l r : Text} {threads : List Thread} (h : Hopeless p l r threads) :
    threads.find? (·.isDone p.toArray) = none :=
  List.find?_eq_none.2 fun t ht => by simp [h.not_done t ht]

/-- Threads without hope are all kept for the next character. -/
theorem Hopeless.takeWhile {l r : Text} {threads : List Thread} (h : Hopeless p l r threads)
    (more : List Thread) : (threads ++ more).takeWhile (!·.isDone p.toArray) =
      threads ++ more.takeWhile (!·.isDone p.toArray) :=
  List.takeWhile_append_of_pos fun t ht => by simp [h.not_done t ht]

/-- A character gives no hope. -/
theorem Hopeless.take {l r : Text} {c : Char} {threads : List Thread}
    (h : Hopeless p l (c :: r) threads) :
    Hopeless p (l ++ [c]) r (threads.filterMap (·.take? p.toArray c)) := by
  intro u hu hf
  obtain ⟨t, ht, htu⟩ := List.mem_filterMap.1 hu
  -- who can finish behind the character could before
  rw [Thread.take?, List.getElem?_toArray] at htu
  rw [List.getLast?_concat] at hf
  split at htu
  · next x hi =>
    split at htu
    · next hc =>
      cases htu
      exact h t ht (.take hi hc hf)
    · cases htu
  · cases htu

/-- Without hope the match found last stays. -/
theorem search_of_hopeless {l r : Text} {f : Thread} {threads : List Thread}
    (h : Hopeless p l r threads) :
    search p.toArray (some f) l.getLast? l.length threads r = some f := by
  induction r generalizing l threads with
  | nil =>
    rw [search, show (none : Option Char) = ([] : Text).head? from rfl,
      (waiting_of_hopeless h).find?]
    rfl
  | cons c r ih =>
    have hwaiting := waiting_of_hopeless (o := l.length) h
    rw [List.head?_cons] at hwaiting
    rw [search_cons]
    generalize waiting p.toArray l.getLast? (some c) l.length threads = found at hwaiting
    -- no thread that waits is done, so the match stays and all of them are kept
    have hbetter : better p (some f) found = some f := by
      rw [better, hwaiting.find?]
      rfl
    have honward : onward p (some f) found c = found.filterMap (·.take? p.toArray c) := by
      have htake := hwaiting.takeWhile []
      rw [List.append_nil] at htake
      rw [onward, htake]
      simp
    rw [hbetter, honward]
    split
    · rfl
    · have := ih hwaiting.take
      rwa [List.getLast?_concat, List.length_append, List.length_singleton] at this

/-- The search finds the match that the first thread with hope comes to by the preferred ways. -/
theorem search_of_chooses {l r : Text} {best : Option Thread} {dead rest : List Thread} {n : Nat}
    {t f : Thread} (hdead : Hopeless p l r dead) (h : Chooses p n ⟨t, l, r⟩ f) :
    search p.toArray best l.getLast? l.length (dead ++ t :: rest) r = some f := by
  induction r generalizing l best dead rest n t with
  | nil =>
    -- behind the last character only a thread that is done is left to be chosen
    obtain ⟨before, w, after, heq, hbefore, hw⟩ := waiting_of_chooses rest hdead h
    rw [search, show (none : Option Char) = ([] : Text).head? from rfl, heq, List.find?_append,
      hbefore.find?]
    cases hw with
    | done hdone =>
      rw [List.find?_cons_of_pos (isDone_iff.2 hdone)]
      rfl
  | cons c r ih =>
    obtain ⟨before, w, after, heq, hbefore, hw⟩ := waiting_of_chooses rest hdead h
    rw [List.head?_cons] at heq
    rw [search_cons, heq]
    cases hw with
    | done hdone =>
      -- all threads behind the match are ended, and those before it are without hope
      have hbetter : better p best (before ++ f :: after) = some f := by
        rw [better, List.find?_append, hbefore.find?, List.find?_cons_of_pos (isDone_iff.2 hdone)]
        rfl
      have hend : (f :: after).takeWhile (!·.isDone p.toArray) = [] :=
        List.takeWhile_cons_of_neg (by simp [isDone_iff.2 hdone])
      have honward : onward p (some f) (before ++ f :: after) c =
          before.filterMap (·.take? p.toArray c) := by
        rw [onward, hbefore.takeWhile, hend]
        simp
      rw [hbetter, honward]
      split
      · rfl
      · have := search_of_hopeless (f := f) hbefore.take
        rwa [List.getLast?_concat, List.length_append, List.length_singleton] at this
    | @take _ _ _ _ x m _ hi hc hstep =>
      have hnot : w.isDone p.toArray = false := by
        apply Bool.eq_false_iff.2
        exact fun hdone => absurd (lt_of_instr hi) (Nat.not_lt.2 (isDone_iff.1 hdone))
      have htake : w.take? p.toArray c = some w.step := by
        rw [Thread.take?, List.getElem?_toArray, hi]
        exact if_pos hc
      generalize better p best (before ++ w :: after) = best'
      have honward : ∃ rest', onward p best' (before ++ w :: after) c =
          before.filterMap (·.take? p.toArray c) ++ w.step :: rest' := by
        rw [onward, hbefore.takeWhile, List.takeWhile_cons_of_pos (by simp [hnot]),
          List.filterMap_append, List.filterMap_cons_some htake, List.append_assoc]
        exact ⟨_, rfl⟩
      obtain ⟨rest', honward⟩ := honward
      rw [honward, if_neg (by simp)]
      have : search p.toArray best' (l ++ [c]).getLast? (l ++ [c]).length
          (before.filterMap (·.take? p.toArray c) ++ w.step :: rest') r = some f :=
        ih hbefore.take hstep
      rwa [List.getLast?_concat, List.length_append, List.length_singleton] at this

end Routing.Regex
