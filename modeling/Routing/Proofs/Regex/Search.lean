import Mathlib.Data.List.TakeWhile
import Routing.Proofs.Regex.Execution

/-!
# The search finds what an expression matches

A search follows all threads at once and keeps one thread an instruction. What it finds was come to
step by step, and it finds something whenever some thread can finish: the instructions that
exploring has seen are closed under going on without a character, and exploring stops only when no
thread is left to follow.

* `waiting_of_closed` — what holds of all threads at a place holds of those that wait there
* `exists_waiting` — a thread that can finish leads to one that waits
* `Expr.matches_of_find`, `Expr.isSome_find` — the search is right about the language
-/

namespace Routing.Regex

variable {p : List Instr} {b a : Option Char} {o : Nat}

/-! ## Exploring -/

/-- From one instruction to another without a character. -/
def Leads (p : List Instr) (b a : Option Char) (i j : Nat) : Prop :=
  ∃ x o t t', p[i]? = some x ∧ t.next = i ∧ t' ∈ x.ways b a o t ∧ t'.next = j

/-- At this instruction a thread waits for a character or has matched. -/
def Waits (p : List Instr) (i : Nat) : Prop :=
  p[i]? = none ∨ ∃ s, p[i]? = some (.take s)

/-- Where an instruction leads depends on nothing else of the thread. -/
theorem Instr.map_next_ways {x : Instr} {o o' : Nat} {t t' : Thread} (h : t.next = t'.next) :
    (x.ways b a o t).map (·.next) = (x.ways b a o' t').map (·.next) := by
  have hclose (t : Thread) (name : Text) (j : Nat) : (t.closeAt name j).next = t.next := by
    unfold Thread.closeAt
    split <;> rfl
  cases x with
  | take | jump | back | opened => simp [ways, Thread.goTo, Thread.step, Thread.openAt, h]
  | look l => simp only [ways]; split <;> simp [Thread.step, Thread.goTo, h]
  | skip greedy | again greedy => cases greedy <;> simp [ways, Thread.step, Thread.goTo, h]
  | closed name => simp [ways, Thread.step, Thread.goTo, hclose, h]

/-- No instruction leads to more than two places, so exploring adds at most two threads a step. -/
theorem Instr.length_ways (x : Instr) (o : Nat) (t : Thread) : (x.ways b a o t).length ≤ 2 := by
  cases x with
  | look l => simp only [ways]; split <;> simp
  | skip greedy | again greedy => cases greedy <;> simp [ways]
  | take | jump | back | opened | closed => simp [ways]

/-- The instructions that have not been come to. -/
def unseen (p : List Instr) (seen : NatSet) : List Nat :=
  (List.range p.length).filter fun i => !seen.mem i

/-- Coming to an instruction strikes it from those that have not been come to. -/
theorem unseen_insert (seen : NatSet) (i : Nat) :
    unseen p (seen.insert i) = (unseen p seen).filter fun j => !decide (i = j) := by
  rw [unseen, unseen, List.filter_filter]
  apply List.filter_congr
  intro j _
  rw [NatSet.mem_insert, Bool.not_or, Bool.and_comm]

/-- Coming to an instruction leaves no more of them unseen. -/
theorem length_unseen_insert_le (seen : NatSet) (i : Nat) :
    (unseen p (seen.insert i)).length ≤ (unseen p seen).length := by
  rw [unseen_insert]
  exact List.length_filter_le ..

/-- Coming to an instruction of the program for the first time leaves fewer unseen. -/
theorem length_unseen_insert_lt {seen : NatSet} {i : Nat} (hi : i < p.length)
    (hs : seen.mem i = false) :
    (unseen p (seen.insert i)).length < (unseen p seen).length := by
  rw [unseen_insert]
  refine List.length_filter_lt_length_iff_exists.2 ⟨i, ?_, by simp⟩
  exact List.mem_filter.2 ⟨List.mem_range.2 hi, by rw [hs]; rfl⟩

/-- The instructions come to are closed under going on, but for those of the threads that are still
to be followed, and the threads that wait are found. -/
structure Explored (p : List Instr) (b a : Option Char) (threads : List Thread) (seen : Nat → Prop)
    (found : List Thread) : Prop where
  edges : ∀ {i j}, seen i → Leads p b a i j → seen j ∨ ∃ t ∈ threads, t.next = j
  waits : ∀ {i}, seen i → Waits p i → ∃ t ∈ found, t.next = i

/-- At the outset nothing has been come to, so there is nothing to account for. -/
theorem explored_empty (threads : List Thread) :
    Explored p b a threads (NatSet.empty.mem ·) [] := by
  constructor <;> simp [NatSet.mem_empty]

/-- Once the first thread's instruction counts as come to, what led to it stays accounted for. -/
theorem Explored.leads {t : Thread} {ts found : List Thread} {seen : NatSet} {i j : Nat}
    (h : Explored p b a (t :: ts) (seen.mem ·) found) (hi : seen.mem i = true)
    (hij : Leads p b a i j) : (seen.insert t.next).mem j = true ∨ ∃ u ∈ ts, u.next = j := by
  rcases h.edges hi hij with hj | ⟨u, hu, rfl⟩
  · exact .inl (by simp [NatSet.mem_insert, hj])
  · rcases List.mem_cons.1 hu with rfl | hu
    · exact .inl (by simp [NatSet.mem_insert])
    · exact .inr ⟨u, hu, rfl⟩

/-- A thread that waits is found. -/
theorem Explored.found {t : Thread} {ts found : List Thread} {seen : NatSet}
    (h : Explored p b a (t :: ts) (seen.mem ·) found) (hw : Waits p t.next) :
    Explored p b a ts ((seen.insert t.next).mem ·) (t :: found) where
  edges := by
    intro i j hi hij
    rw [NatSet.mem_insert, Bool.or_eq_true, decide_eq_true_iff] at hi
    rcases hi with hi | rfl
    · exact h.leads hi hij
    · obtain ⟨x, o, u, u', hx, -, hu', -⟩ := hij
      -- an instruction that waits leads nowhere
      rcases hw with hn | ⟨s, hs⟩
      · simp [hn] at hx
      · rw [hs] at hx
        cases hx
        simp [Instr.ways] at hu'
  waits := by
    intro i hi hwi
    rw [NatSet.mem_insert, Bool.or_eq_true, decide_eq_true_iff] at hi
    rcases hi with hi | rfl
    · obtain ⟨u, hu, rfl⟩ := h.waits hi hwi
      exact ⟨u, List.mem_cons_of_mem _ hu, rfl⟩
    · exact ⟨t, List.mem_cons_self, rfl⟩

/-- A thread that goes on is followed by those that it leads to. -/
theorem Explored.ways {t : Thread} {ts found : List Thread} {seen : NatSet} {x : Instr}
    (h : Explored p b a (t :: ts) (seen.mem ·) found) (hx : p[t.next]? = some x)
    (hs : ∀ s, x ≠ .take s) :
    Explored p b a (x.ways b a o t ++ ts) ((seen.insert t.next).mem ·) found where
  edges := by
    intro i j hi hij
    rw [NatSet.mem_insert, Bool.or_eq_true, decide_eq_true_iff] at hi
    rcases hi with hi | rfl
    · refine (h.leads hi hij).imp id ?_
      exact fun ⟨u, hu, huj⟩ => ⟨u, List.mem_append_right _ hu, huj⟩
    · obtain ⟨y, o', u, u', hy, hu, hu', rfl⟩ := hij
      rw [hx] at hy
      cases hy
      -- the edge was drawn by some other thread at this instruction, which leads to the same places
      have hmem : u'.next ∈ (x.ways b a o t).map (·.next) := by
        rw [← Instr.map_next_ways (o := o') hu]
        exact List.mem_map_of_mem hu'
      obtain ⟨v, hv, hvn⟩ := List.mem_map.1 hmem
      exact .inr ⟨v, List.mem_append_left _ hv, hvn⟩
  waits := by
    intro i hi hwi
    rw [NatSet.mem_insert, Bool.or_eq_true, decide_eq_true_iff] at hi
    rcases hi with hi | rfl
    · exact h.waits hi hwi
    · rcases hwi with hn | ⟨s, hn⟩
      · simp [hn] at hx
      · rw [hn] at hx
        cases hx
        exact absurd rfl (hs s)

/-- An instruction that was come to before need not be followed again. -/
theorem Explored.skip {t : Thread} {ts found : List Thread} {seen : NatSet}
    (h : Explored p b a (t :: ts) (seen.mem ·) found) (ht : seen.mem t.next = true) :
    Explored p b a ts (seen.mem ·) found where
  edges := by
    intro i j hi hij
    rcases h.edges hi hij with hj | ⟨u, hu, rfl⟩
    · exact .inl hj
    · rcases List.mem_cons.1 hu with rfl | hu
      · exact .inl ht
      · exact .inr ⟨u, hu, rfl⟩
  waits := h.waits

/-- With fuel for every thread and for two more an instruction, exploring comes to an end, and what
it has come to then is closed. -/
theorem explore_explored (fuel : Nat) {threads : List Thread} {seen : NatSet}
    {found : List Thread} (hfuel : threads.length + 2 * (unseen p seen).length < fuel)
    (h : Explored p b a threads (seen.mem ·) found) :
    ∃ all : Nat → Prop, (∀ t ∈ threads, all t.next) ∧ (∀ i, seen.mem i → all i) ∧
      Explored p b a [] all (explore p.toArray b a o fuel threads seen found) := by
  induction fuel generalizing threads seen found with
  | zero => omega
  | succ fuel ih =>
    cases threads with
    | nil =>
      refine ⟨(seen.mem ·), by simp, fun _ => id, h.edges, fun hi hw => ?_⟩
      simpa [explore] using h.waits hi hw
    | cons t ts =>
      rw [List.length_cons] at hfuel
      rw [explore]
      -- a thread that came to an instruction again is dropped; any other one counts as seen, and
      -- waits or is followed, so that fewer instructions are left to see
      by_cases hseen : seen.mem t.next
      · rw [if_pos hseen]
        obtain ⟨all, hts, hall, hex⟩ := ih (by omega) (h.skip hseen)
        exact ⟨all, List.forall_mem_cons.2 ⟨hall _ hseen, hts⟩, hall, hex⟩
      · rw [if_neg hseen, List.getElem?_toArray]
        have hself : (seen.insert t.next).mem t.next = true := by simp [NatSet.mem_insert]
        have hmono (i) (hi : seen.mem i = true) : (seen.insert t.next).mem i = true := by
          simp [NatSet.mem_insert, hi]
        by_cases hw : Waits p t.next
        · have hle := length_unseen_insert_le (p := p) seen t.next
          obtain ⟨all, hts, hall, hex⟩ := ih (by omega) (h.found hw)
          refine ⟨all, List.forall_mem_cons.2 ⟨hall _ hself, hts⟩, fun i hi => hall i (hmono i hi), ?_⟩
          rcases hw with hn | ⟨s, hs⟩
          · simpa only [hn] using hex
          · simpa only [hs] using hex
        · obtain ⟨x, hx⟩ : ∃ x, p[t.next]? = some x :=
            Option.ne_none_iff_exists'.1 fun hn => hw (.inl hn)
          have hs (s) : x ≠ .take s := fun hxs => hw (.inr ⟨s, hxs ▸ hx⟩)
          have hless := length_unseen_insert_lt (lt_of_instr hx) (Bool.eq_false_iff.2 hseen)
          have hways := x.length_ways (b := b) (a := a) o t
          obtain ⟨all, hts, hall, hex⟩ := ih (by rw [List.length_append]; omega)
            (h.ways (o := o) hx hs)
          refine ⟨all, List.forall_mem_cons.2 ⟨hall _ hself, fun u hu => hts u ?_⟩,
            fun i hi => hall i (hmono i hi), ?_⟩
          · exact List.mem_append_right _ hu
          · rw [hx]
            cases x with
            | take s => exact absurd rfl (hs s)
            | look | skip | again | jump | back | opened | closed => exact hex

/-- What holds of all threads at a place, and stays true where they go, holds of those found. -/
theorem explore_of_closed {P : Thread → Prop} {fuel : Nat} {threads : List Thread} {seen : NatSet}
    {found : List Thread}
    (hP : ∀ {t t' x}, p[t.next]? = some x → t' ∈ x.ways b a o t → P t → P t')
    (hthreads : ∀ t ∈ threads, P t) (hfound : ∀ t ∈ found, P t) :
    ∀ t ∈ explore p.toArray b a o fuel threads seen found, P t := by
  have hend {found : List Thread} (hfound : ∀ t ∈ found, P t) : ∀ t ∈ found.reverse, P t :=
    fun t ht => hfound t (List.mem_reverse.1 ht)
  induction fuel generalizing threads seen found with
  | zero => exact hend hfound
  | succ fuel ih =>
    cases threads with
    | nil => exact hend hfound
    | cons t ts =>
      obtain ⟨ht, hts⟩ := List.forall_mem_cons.1 hthreads
      have hfound' := List.forall_mem_cons.2 ⟨ht, hfound⟩
      -- dropped, kept as one that waits, or followed
      rw [explore, List.getElem?_toArray]
      split
      · exact ih hts hfound
      · dsimp only
        split
        · exact ih hts hfound'
        · exact ih hts hfound'
        · next x _ hx =>
          refine ih (fun u hu => ?_) hfound
          rcases List.mem_append.1 hu with hu | hu
          · exact hP hx hu ht
          · exact hts u hu

/-! ## Threads that wait -/

/-- What holds of all threads at a place, and stays true where they go without a character, holds of
those that wait. -/
theorem waiting_of_closed {P : Thread → Prop} {threads : List Thread}
    (hP : ∀ {t t' x}, p[t.next]? = some x → t' ∈ x.ways b a o t → P t → P t')
    (hthreads : ∀ t ∈ threads, P t) : ∀ t ∈ waiting p.toArray b a o threads, P t :=
  explore_of_closed hP hthreads (by simp)

/-- A thread at instruction `i` has matched, or can take the next character and finish. -/
def Ready (p : List Instr) (s : Text) (i : Nat) : Prop :=
  p.length ≤ i ∨
    ∃ c s' x, s = c :: s' ∧ p[i]? = some (.take x) ∧ x.mem c ∧ Finishes p (some c) s' (i + 1)

/-- A thread that can finish leads to one that waits for nothing else. -/
theorem exists_waiting {s : Text} {t : Thread} {threads : List Thread} (ht : t ∈ threads)
    (hf : Finishes p b s t.next) :
    ∃ u ∈ waiting p.toArray b s.head? o threads, Ready p s u.next := by
  have hlen : (unseen p .empty).length ≤ p.length := by
    simpa only [unseen, List.length_range] using List.length_filter_le _ (List.range p.length)
  obtain ⟨all, hall, -, hex⟩ := explore_explored (p := p) (b := b) (a := s.head?) (o := o)
    (threads.length + 2 * p.toArray.size + 3) (by rw [List.size_toArray]; omega)
    (explored_empty threads)
  have hi : all t.next := hall t ht
  -- the instructions that were come to are closed, so the way to the end stays among them
  generalize t.next = i at hf hi
  clear hall ht
  induction hf with
  | done h =>
    obtain ⟨u, hu, rfl⟩ := hex.waits hi (.inl (List.getElem?_eq_none h))
    exact ⟨u, hu, .inl h⟩
  | take hx hc hf =>
    obtain ⟨u, hu, rfl⟩ := hex.waits hi (.inr ⟨_, hx⟩)
    exact ⟨u, hu, .inr ⟨_, _, _, rfl, hx, hc, hf⟩⟩
  | way hx ht hw hf ih =>
    rcases hex.edges hi ⟨_, _, _, _, hx, ht, hw, rfl⟩ with hj | ⟨_, hu, -⟩
    · exact ih hex hj
    · simp at hu

/-! ## Reading on -/

/-- A thread at a place of a text, as it was come to. -/
def Begun (p : List Instr) (s l r : Text) (t : Thread) : Prop :=
  l ++ r = s ∧ ∃ l₀ r₀ n, l₀ ++ r₀ = s ∧ Steps p n ⟨.start, l₀, r₀⟩ ⟨t, l, r⟩

/-- A thread that matched somewhere in a text. -/
def Matched (p : List Instr) (s : Text) (t : Thread) : Prop :=
  ∃ l r, Begun p s l r t ∧ p.length ≤ t.next

/-- A thread that goes on without a character was come to at the same place. -/
theorem Begun.way {s l r : Text} {t t' : Thread} {x : Instr} (hx : p[t.next]? = some x)
    (ht : t' ∈ x.ways l.getLast? r.head? l.length t) (h : Begun p s l r t) : Begun p s l r t' := by
  obtain ⟨hs, l₀, r₀, n, h₀, hsteps⟩ := h
  exact ⟨hs, l₀, r₀, n + 1, h₀, hsteps.snoc (.way hx ht)⟩

/-- A thread that takes a character was come to one character further on. -/
theorem Begun.take {s l r : Text} {c : Char} {t t' : Thread} (ht : t.take? p.toArray c = some t')
    (h : Begun p s l (c :: r) t) : Begun p s (l ++ [c]) r t' := by
  obtain ⟨hs, l₀, r₀, n, h₀, hsteps⟩ := h
  -- only an instruction that takes a character, and takes this one, gives a thread
  rw [Thread.take?, List.getElem?_toArray] at ht
  split at ht
  · next x hx =>
    split at ht
    · next hc =>
      cases ht
      exact ⟨by simpa using hs, l₀, r₀, n + 1, h₀, hsteps.snoc (.take hx hc)⟩
    · cases ht
  · cases ht

/-- The search counts a thread as done when it stands behind the last instruction. -/
theorem isDone_iff {t : Thread} : t.isDone p.toArray = true ↔ p.length ≤ t.next := by
  rw [Thread.isDone, List.size_toArray, decide_eq_true_iff]

/-- The match preferred after a place. -/
def better (p : List Instr) (best : Option Thread) (found : List Thread) : Option Thread :=
  (found.find? (·.isDone p.toArray)).or best

/-- The threads that go on behind a place, with those that begin there as long as there is no
match. -/
def onward (p : List Instr) (best : Option Thread) (found : List Thread) (c : Char) :
    List Thread :=
  (found.takeWhile (!·.isDone p.toArray)).filterMap (·.take? p.toArray c) ++
    if best.isSome then [] else [.start]

/-- One round of a search: the threads at a place are explored, the best match is kept, and what may
go on does so with the next character. -/
theorem search_cons (best : Option Thread) (threads : List Thread) (c : Char) (s : Text) :
    let found := waiting p.toArray b (some c) o threads
    let best' := better p best found
    search p.toArray best b o threads (c :: s) =
      if onward p best' found c = [] then best'
      else search p.toArray best' (some c) (o + 1) (onward p best' found c) s := by
  intro found best'
  rw [search]
  -- with a match and no thread left the search stops; with a match it goes on without beginning
  -- anew; without one a thread begins at the next place
  split
  case h_1 t hbest hlive =>
    have hempty : onward p best' found c = [] := by
      rw [onward, hlive, show best' = some t from hbest]
      rfl
    rw [if_pos hempty]
    rfl
  case h_2 t hbest hlive =>
    have honward : onward p best' found c =
        (found.takeWhile (!·.isDone p.toArray)).filterMap (·.take? p.toArray c) := by
      rw [onward, show best' = some t from hbest, if_pos (show (some t).isSome from rfl),
        List.append_nil]
    rw [honward, if_neg hlive]
    rfl
  case h_3 hbest =>
    have honward : onward p best' found c =
        (found.takeWhile (!·.isDone p.toArray)).filterMap (·.take? p.toArray c) ++ [.start] := by
      rw [onward, show best' = none from hbest]
      rfl
    rw [honward, if_neg (by simp)]
    rfl

/-- A match once found is given up for nothing but another one. -/
theorem better_isSome_of_best {best : Option Thread} (h : best.isSome) (found : List Thread) :
    (better p best found).isSome := by
  simp [better, h]

/-- A thread that is done makes for a match. -/
theorem better_isSome_of_done {u : Thread} {found : List Thread} (hu : u ∈ found)
    (hdone : p.length ≤ u.next) (best : Option Thread) : (better p best found).isSome := by
  rw [better, Option.isSome_or, Bool.or_eq_true, List.find?_isSome]
  exact .inl ⟨u, hu, isDone_iff.2 hdone⟩

/-- What is found was come to step by step. -/
theorem matched_of_search {s l r : Text} {best : Option Thread} {threads : List Thread}
    {t : Thread} (hs : l ++ r = s) (hbest : ∀ t ∈ best, Matched p s t)
    (hthreads : ∀ t ∈ threads, Begun p s l r t)
    (h : search p.toArray best l.getLast? l.length threads r = some t) : Matched p s t := by
  -- the best match of a round is an old one or a thread of this place
  have hbetter {l r} {found : List Thread} {best} (hbest : ∀ t ∈ best, Matched p s t)
      (hfound : ∀ t ∈ found, Begun p s l r t) : ∀ t ∈ better p best found, Matched p s t := by
    intro t ht
    rcases Option.or_eq_some_iff.1 ht with ht | ⟨-, ht⟩
    · exact ⟨l, r, hfound t (List.mem_of_find?_eq_some ht), isDone_iff.1 (List.find?_some ht)⟩
    · exact hbest t ht
  induction r generalizing l best threads with
  | nil => exact hbetter hbest (waiting_of_closed (Begun.way (r := [])) hthreads) t h
  | cons c r ih =>
    have hfound := waiting_of_closed (Begun.way (r := c :: r)) hthreads
    have hs' : (l ++ [c]) ++ r = s := by rw [List.append_assoc]; exact hs
    have hbest' := hbetter hbest hfound
    rw [List.head?_cons] at hfound hbest'
    rw [search_cons] at h
    generalize waiting p.toArray l.getLast? (some c) l.length threads = found at hfound hbest' h
    split at h
    · exact hbest' t h
    · have ih := @ih (l ++ [c])
      rw [List.getLast?_concat, List.length_append, List.length_singleton] at ih
      refine ih hs' hbest' (fun u hu => ?_) h
      -- a thread that took the character, or one that begins behind it
      rcases List.mem_append.1 hu with hu | hu
      · obtain ⟨v, hv, hvu⟩ := List.mem_filterMap.1 hu
        exact (hfound v (List.takeWhile_subset _ hv)).take hvu
      · split at hu
        · simp at hu
        · rw [List.mem_singleton.1 hu]
          exact ⟨hs', _, _, 0, hs', .refl _⟩

/-- Once there is a match, one is found. -/
theorem isSome_search_of_best {best : Option Thread} {threads : List Thread} {s : Text}
    (hbest : best.isSome) : (search p.toArray best b o threads s).isSome := by
  induction s generalizing best b o threads with
  | nil => exact better_isSome_of_best hbest _
  | cons c s ih =>
    rw [search_cons]
    have := better_isSome_of_best (p := p) hbest (waiting p.toArray b (some c) o threads)
    split
    · exact this
    · exact ih this

/-- A thread that can finish makes the search find a match. -/
theorem isSome_search {best : Option Thread} {t : Thread} {threads : List Thread} {s : Text}
    (ht : t ∈ threads) (hf : Finishes p b s t.next) :
    (search p.toArray best b o threads s).isSome := by
  induction s generalizing best b o t threads with
  | nil =>
    obtain ⟨u, hu, hdone | ⟨_, _, _, hs, -⟩⟩ := exists_waiting (o := o) ht hf
    · exact better_isSome_of_done hu hdone best
    · cases hs
  | cons c s ih =>
    obtain ⟨u, hu, hready⟩ := exists_waiting (o := o) ht hf
    rw [List.head?_cons] at hu
    rw [search_cons]
    generalize waiting p.toArray b (some c) o threads = found at hu
    -- with a match there is one in the end; without one every thread is taken on
    cases hb : (better p best found) with
    | some t =>
      split
      · rfl
      · exact isSome_search_of_best rfl
    | none =>
      have hnone : ∀ v ∈ found, ¬ v.isDone p.toArray = true :=
        List.find?_eq_none.1 (Option.or_eq_none_iff.1 hb).1
      rcases hready with hdone | ⟨_, _, x, hs, hx, hc, hf⟩
      · exact absurd (isDone_iff.2 hdone) (hnone u hu)
      cases hs
      have hstep : u.step ∈ onward p none found c := by
        -- no thread has matched, so none is ended
        have hall : found.takeWhile (!·.isDone p.toArray) = found := by
          rw [List.takeWhile_eq_self_iff]
          exact fun v hv => by simpa using hnone v hv
        rw [onward, hall]
        refine List.mem_append_left _ (List.mem_filterMap.2 ⟨u, hu, ?_⟩)
        rw [Thread.take?, List.getElem?_toArray, hx]
        exact if_pos hc
      rw [if_neg (List.ne_nil_of_mem hstep)]
      exact ih hstep hf

/-- A thread begins at every place until there is a match. -/
theorem isSome_search_of_later {best : Option Thread} {threads : List Thread} {l s : Text}
    (hstart : Thread.start ∈ threads) (hf : Finishes p (l.getLast?.or b) s Thread.start.next) :
    (search p.toArray best b o threads (l ++ s)).isSome := by
  induction l generalizing best b o threads with
  | nil => exact isSome_search hstart (by simpa using hf)
  | cons c l ih =>
    rw [List.cons_append, search_cons]
    generalize waiting p.toArray b (some c) o threads = found
    cases hb : (better p best found) with
    | some t =>
      split
      · rfl
      · exact isSome_search_of_best rfl
    | none =>
      have hmem : Thread.start ∈ onward p none found c :=
        List.mem_append_right _ (List.mem_singleton.2 rfl)
      rw [if_neg (List.ne_nil_of_mem hmem)]
      refine ih hmem ?_
      rw [List.getLast?_cons] at hf
      cases hl : l.getLast? <;> simpa [hl] using hf

/-! ## Expressions -/

namespace Expr

variable {e : Expr} {s : Text}

/-- What the search finds, the expression matches. -/
theorem matches_of_find {g : Groups} (h : e.find? s = some g) :
    ∃ l t r, s = l ++ t ++ r ∧ e.Matches l t r g := by
  obtain ⟨t, ht, rfl⟩ := Option.map_eq_some_iff.1 h
  obtain ⟨l, r, ⟨hs, l₀, r₀, n, h₀, hsteps⟩, hdone⟩ :=
    matched_of_search (p := e.code) (s := s) (l := []) rfl (by simp)
      (fun u hu => by rw [List.mem_singleton.1 hu]; exact ⟨rfl, [], s, 0, rfl, .refl _⟩) ht
  have hcode := e.realizes_code (at_self e.code)
  rw [Nat.zero_add] at hcode
  obtain ⟨m, -, b, ⟨w, g, hw, hb, hM, hk, -, hg⟩, hrest⟩ := hcode.leave (f := ⟨t, l, r⟩) rfl hdone hsteps
  -- behind the last instruction there is no step
  have hend : b = ⟨t, l, r⟩ := by
    cases hrest with
    | refl => rfl
    | cons hstep _ =>
      have hnone : e.code[b.thread.next]? = none := List.getElem?_eq_none (Nat.le_of_eq hk.symm)
      cases hstep <;> simp_all
  subst hend
  dsimp only at hw hb hM hg
  refine ⟨l₀, w, r, by rw [← h₀, hw, List.append_assoc], ?_⟩
  rw [h₀] at hg
  rw [hg]
  simpa [Thread.groups, Thread.start] using hM

/-- What the expression matches somewhere, the search finds. -/
theorem isSome_find {l t r : Text} {g : Groups} (h : e.Matches l t r g) :
    (e.find? (l ++ t ++ r)).isSome := by
  have hcode := e.realizes_code (at_self e.code)
  have hf := hcode.enter h (.done (Nat.le_of_eq (Nat.zero_add _).symm))
  rw [find?, Option.isSome_map, List.append_assoc]
  exact isSome_search_of_later (List.mem_singleton.2 rfl) (by rwa [Option.or_none])

end Expr

end Routing.Regex
