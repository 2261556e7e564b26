import Routing.Text.Ranges

/-!
# Sets of numbers by their bounds

A set of numbers that consists of a few long ranges is given by its **bounds**: the ascending
numbers at which membership changes. Two such lists are combined by one walk over both, whatever the
operation on the sets is.

* `Bounds.inside` — membership
* `Bounds.combine` — the bounds of a Boolean combination of two sets; `Bounds.inside_combine` says
  that it is one
* `Bounds.ofRanges` — the bounds of a table of ranges; `Bounds.inside_ofRanges` says that they are
  those of its members
-/

namespace Routing

namespace Bounds

/-- Whether a number is inside, when `now` tells whether the numbers before the first bound are. -/
def inside (now : Bool) : List Nat → Nat → Bool
  | [], _ => now
  | b :: bs, n => if n < b then now else inside (!now) bs n

/-- Puts a bound in front where membership changes from `old` to `new`. -/
def change (old new : Bool) (b : Nat) (bs : List Nat) : List Nat :=
  if old = new then bs else b :: bs

/-- The bounds of the numbers for which `f` holds of their membership in two sets; `x` and `y` tell
whether the numbers before the first bounds are inside. -/
def combine (f : Bool → Bool → Bool) (x y : Bool) : List Nat → List Nat → List Nat
  | [], [] => []
  | a :: as, [] => change (f x y) (f (!x) y) a (combine f (!x) y as [])
  | [], b :: bs => change (f x y) (f x (!y)) b (combine f x (!y) [] bs)
  | a :: as, b :: bs =>
    if a < b then change (f x y) (f (!x) y) a (combine f (!x) y as (b :: bs))
    else if b < a then change (f x y) (f x (!y)) b (combine f x (!y) (a :: as) bs)
    else change (f x y) (f (!x) (!y)) a (combine f (!x) (!y) as bs)
termination_by as bs => as.length + bs.length

/-! ## Membership -/

theorem inside_cons_of_lt {now : Bool} {b n : Nat} {bs : List Nat} (h : n < b) :
    inside now (b :: bs) n = now :=
  if_pos h

theorem inside_cons_of_le {now : Bool} {b n : Nat} {bs : List Nat} (h : b ≤ n) :
    inside now (b :: bs) n = inside (!now) bs n :=
  if_neg (Nat.not_lt.2 h)

/-- Below the first of ascending bounds, membership does not change at the later ones either. -/
theorem inside_tail {now : Bool} {b n : Nat} {bs : List Nat} (h : (b :: bs).Pairwise (· < ·))
    (hn : n < b) : inside now bs n = now := by
  cases bs with
  | nil => rfl
  | cons c bs => exact inside_cons_of_lt (Nat.lt_trans hn (List.rel_of_pairwise_cons h (.head _)))

/-- Membership after a bound in front is told on its two sides. -/
theorem inside_change {old new result : Bool} {b n : Nat} {bs : List Nat}
    (hlt : n < b → inside new bs n = new ∧ result = old)
    (hle : b ≤ n → inside new bs n = result) :
    inside old (change old new b bs) n = result := by
  have hside : inside old (change old new b bs) n = if n < b then old else inside new bs n := by
    unfold change
    split
    · next he =>
      subst he
      split
      · next hn => exact (hlt hn).1
      · rfl
    · next he =>
      have : new = !old := by cases old <;> cases new <;> simp_all
      simp [inside, this]
  rw [hside]
  split
  · next hn => exact (hlt hn).2.symm
  · next hn => exact hle (Nat.not_lt.1 hn)

theorem inside_combine (f : Bool → Bool → Bool) {x y : Bool} {as bs : List Nat}
    (ha : as.Pairwise (· < ·)) (hb : bs.Pairwise (· < ·)) (n : Nat) :
    inside (f x y) (combine f x y as bs) n = f (inside x as n) (inside y bs n) := by
  -- below the bound in front neither set has changed; from it on, the recursion tells
  fun_induction combine f x y as bs with
  | case1 => rfl
  | case2 x y a as ih =>
    have ih := ih ha.of_cons hb
    refine inside_change (fun hn => ⟨?_, ?_⟩) fun hn => ?_
    · rw [ih, inside_tail ha hn]
      rfl
    · rw [inside_cons_of_lt hn]
      rfl
    · rw [ih, inside_cons_of_le hn]
  | case3 x y b bs ih =>
    have ih := ih ha hb.of_cons
    refine inside_change (fun hn => ⟨?_, ?_⟩) fun hn => ?_
    · rw [ih, inside_tail hb hn]
      rfl
    · rw [inside_cons_of_lt hn]
      rfl
    · rw [ih, inside_cons_of_le hn]
  | case4 x y a as b bs hab ih =>
    have ih := ih ha.of_cons hb
    refine inside_change (fun hn => ⟨?_, ?_⟩) fun hn => ?_
    · rw [ih, inside_tail ha hn, inside_cons_of_lt (Nat.lt_trans hn hab)]
    · rw [inside_cons_of_lt hn, inside_cons_of_lt (Nat.lt_trans hn hab)]
    · rw [ih, inside_cons_of_le hn]
  | case5 x y a as b bs hab hba ih =>
    have ih := ih ha hb.of_cons
    refine inside_change (fun hn => ⟨?_, ?_⟩) fun hn => ?_
    · rw [ih, inside_cons_of_lt (Nat.lt_trans hn hba), inside_tail hb hn]
    · rw [inside_cons_of_lt (Nat.lt_trans hn hba), inside_cons_of_lt hn]
    · rw [ih, inside_cons_of_le hn]
  | case6 x y a as b bs hab hba ih =>
    have ih := ih ha.of_cons hb.of_cons
    obtain rfl : a = b := by omega
    refine inside_change (fun hn => ⟨?_, ?_⟩) fun hn => ?_
    · rw [ih, inside_tail ha hn, inside_tail hb hn]
    · rw [inside_cons_of_lt hn, inside_cons_of_lt hn]
    · rw [ih, inside_cons_of_le hn, inside_cons_of_le hn]

/-! ## Order -/

theorem mem_change {old new : Bool} {b c : Nat} {bs : List Nat} (h : c ∈ change old new b bs) :
    c = b ∨ c ∈ bs := by
  unfold change at h
  split at h
  · exact .inr h
  · exact List.mem_cons.1 h

theorem mem_of_mem_combine {f : Bool → Bool → Bool} {x y : Bool} {as bs : List Nat} {c : Nat}
    (h : c ∈ combine f x y as bs) : c ∈ as ∨ c ∈ bs := by
  fun_induction combine f x y as bs with
  | case1 => cases h
  | _ =>
    rcases mem_change h with rfl | h
    · simp
    · simp_all only [List.mem_cons]
      grind

theorem pairwise_change {old new : Bool} {b : Nat} {bs : List Nat} (hb : ∀ c ∈ bs, b < c)
    (h : bs.Pairwise (· < ·)) : (change old new b bs).Pairwise (· < ·) := by
  unfold change
  split
  · exact h
  · exact List.pairwise_cons.2 ⟨hb, h⟩

theorem pairwise_combine (f : Bool → Bool → Bool) {x y : Bool} {as bs : List Nat}
    (ha : as.Pairwise (· < ·)) (hb : bs.Pairwise (· < ·)) :
    (combine f x y as bs).Pairwise (· < ·) := by
  fun_induction combine f x y as bs with
  | case1 => exact .nil
  | _ =>
    refine pairwise_change (fun c hc => ?_) ?_
    · have hm := mem_of_mem_combine hc
      grind [List.pairwise_cons]
    · grind [List.pairwise_cons]

/-! ## Tables -/

/-- The bounds of a table of ranges. -/
def ofRanges (table : CharRanges) : List Nat :=
  table.flatMap fun r => [r.1, r.2 + 1]

theorem inside_ofRanges (table : CharRanges) (n : Nat) :
    inside false (ofRanges table) n = table.memCode n := by
  induction table with
  | nil => rfl
  | cons r rest ih =>
    obtain ⟨lo, hi⟩ := r
    change inside false (lo :: (hi + 1) :: ofRanges rest) n = _
    simp only [inside, CharRanges.memCode, Bool.not_false, Bool.not_true, ih]
    by_cases hlo : n < lo
    · simp [hlo, Nat.not_le.2 hlo]
    · by_cases hhi : n < hi + 1
      · simp [hlo, hhi, Nat.not_lt.1 hlo, Nat.le_of_lt_succ hhi]
      · simp [hlo, hhi, Nat.not_lt.1 hlo, show ¬ n ≤ hi by omega]

theorem pairwise_ofRanges {table : CharRanges} (h : table.Ascending) :
    (ofRanges table).Pairwise (· < ·) := by
  induction table with
  | nil => exact .nil
  | cons r rest ih =>
    obtain ⟨lo, hi⟩ := r
    have hlo : lo ≤ hi := by
      cases rest with
      | nil => exact h
      | cons next rest => exact h.1
    have hgap : ∀ c ∈ ofRanges rest, hi + 1 < c := by
      intro c hc
      obtain ⟨r, hr, hrc⟩ := List.mem_flatMap.1 hc
      cases rest with
      | nil => cases hr
      | cons next rest =>
        have hnext : next.1 ≤ r.1 ∧ r.1 ≤ r.2 := by
          rcases List.mem_cons.1 hr with rfl | hr'
          · exact ⟨Nat.le_refl _, h.tail.le_of_mem_self (List.mem_cons_self ..)⟩
          · exact ⟨h.tail.le_of_mem hr', h.tail.le_of_mem_self hr⟩
        have := h.2.1
        have : c = r.1 ∨ c = r.2 + 1 := by simpa using hrc
        omega
    have hcons : ofRanges ((lo, hi) :: rest) = lo :: (hi + 1) :: ofRanges rest := rfl
    rw [hcons, List.pairwise_cons, List.pairwise_cons]
    refine ⟨fun c hc => ?_, fun c hc => hgap c hc, ih h.tail⟩
    rcases List.mem_cons.1 hc with rfl | hc
    · omega
    · have := hgap c hc
      omega

end Bounds

end Routing
