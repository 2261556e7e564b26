import Routing.Regex.Match

/-!
# The language of an expression

What an expression matches, told without a program: a **language** relates the text before a match,
the match, the text after it, and what the match binds its groups to. Sequences and repetitions are
operations on languages, so that an expression and the way in which it was put together have the
same one.

* `Expr.Matches` — the language of an expression
* `Lang.seq`, `Lang.copies` — one language after the other, and several times the same
* `matches_concat` — putting parts together keeps their language
-/

namespace Routing.Regex

/-- Names bound to texts, the latest binding first. -/
abbrev Groups := List (Text × Text)

/-- A relation between the text before a match, the match, the text after it, and its groups. -/
abbrev Lang := Text → Text → Text → Groups → Prop

namespace Lang

/-- The empty text alone, which binds nothing. -/
def nil : Lang := fun _ t _ g => t = [] ∧ g = []

/-- A match of `M` and then one of `N`. -/
def seq (M N : Lang) : Lang := fun l t r g =>
  ∃ t₁ t₂ g₁ g₂, t = t₁ ++ t₂ ∧ g = g₂ ++ g₁ ∧ M l t₁ (t₂ ++ r) g₁ ∧ N (l ++ t₁) t₂ r g₂

/-- A match of `M` or one of `N`. -/
def or (M N : Lang) : Lang := fun l t r g => M l t r g ∨ N l t r g

/-- `n` matches of `M`. -/
def copies (M : Lang) : Nat → Lang
  | 0 => nil
  | n + 1 => M.seq (M.copies n)

/-- Any number of matches of `M`. -/
def star (M : Lang) : Lang := fun l t r g => ∃ n, M.copies n l t r g

/-- One match of `M` or more. -/
def plus (M : Lang) : Lang := fun l t r g => ∃ n, M.copies (n + 1) l t r g

/-- At most `k` matches of `M`. -/
def upTo (M : Lang) (k : Nat) : Lang := fun l t r g => ∃ n ≤ k, M.copies n l t r g

/-- From `lo` to `hi` matches of `M`; a bound `hi` below `lo` counts as `lo`. -/
def times (lo : Nat) (hi : Option Nat) (M : Lang) : Lang := fun l t r g =>
  ∃ n, lo ≤ n ∧ (∀ h, hi = some h → n ≤ max lo h) ∧ M.copies n l t r g

/-- Languages one after the other. -/
def all (Ms : List Lang) : Lang := Ms.foldr seq nil

theorem nil_seq (M : Lang) : nil.seq M = M := by
  funext l t r g
  refine propext ⟨?_, fun h => ⟨[], t, [], g, rfl, (List.append_nil g).symm, ⟨rfl, rfl⟩, ?_⟩⟩
  · rintro ⟨_, t₂, _, g₂, rfl, rfl, ⟨rfl, rfl⟩, h⟩
    simpa using h
  · simpa using h

theorem seq_nil (M : Lang) : M.seq nil = M := by
  funext l t r g
  refine propext ⟨?_, fun h => ⟨t, [], g, [], (List.append_nil t).symm, rfl, ?_, rfl, rfl⟩⟩
  · rintro ⟨t₁, _, g₁, _, rfl, rfl, h, rfl, rfl⟩
    simpa using h
  · simpa using h

/-- The text before the second language is that before the first one with its match, so the groups
may be bracketed either way. -/
theorem seq_assoc (M N O : Lang) : (M.seq N).seq O = M.seq (N.seq O) := by
  funext l t r g
  apply propext
  constructor
  · rintro ⟨_, t₃, _, g₃, rfl, rfl, ⟨t₁, t₂, g₁, g₂, rfl, rfl, hM, hN⟩, hO⟩
    refine ⟨t₁, t₂ ++ t₃, g₁, g₃ ++ g₂, by simp, by simp, by simpa using hM, ?_⟩
    exact ⟨t₂, t₃, g₂, g₃, rfl, rfl, hN, by simpa using hO⟩
  · rintro ⟨t₁, _, g₁, _, rfl, rfl, hM, ⟨t₂, t₃, g₂, g₃, rfl, rfl, hN, hO⟩⟩
    -- the match is cut after its second part in place of its first one
    refine ⟨t₁ ++ t₂, t₃, g₂ ++ g₁, g₃, by simp, by simp, ?_, by simpa using hO⟩
    exact ⟨t₁, t₂, g₁, g₂, rfl, rfl, by simpa using hM, hN⟩

theorem all_append (Ms Ns : List Lang) : all (Ms ++ Ns) = (all Ms).seq (all Ns) := by
  induction Ms with
  | nil => exact (nil_seq _).symm
  | cons M Ms ih =>
    rw [List.cons_append, all, List.foldr_cons, ← all, ih, ← seq_assoc]
    rfl

/-- `m + n` matches are `m` of them and then `n`. -/
theorem copies_add (M : Lang) (m n : Nat) : M.copies (m + n) = (M.copies m).seq (M.copies n) := by
  induction m with
  | zero => rw [Nat.zero_add]; exact (nil_seq _).symm
  | succ m ih =>
    rw [Nat.succ_add]
    show M.seq (M.copies (m + n)) = (M.seq (M.copies m)).seq (M.copies n)
    rw [ih, seq_assoc]

theorem copies_one (M : Lang) : M.copies 1 = M := seq_nil M

/-- Any number of matches are none, or at least one. -/
theorem nil_or_plus (M : Lang) : nil.or (plus M) = star M := by
  funext l t r g
  apply propext
  constructor
  · rintro (h | ⟨n, h⟩)
    · exact ⟨0, h⟩
    · exact ⟨n + 1, h⟩
  · rintro ⟨n, h⟩
    cases n with
    | zero => exact .inl h
    | succ n => exact .inr ⟨n, h⟩

theorem times_zero_none (M : Lang) : times 0 none M = star M := by
  funext l t r g
  simp [times, star]

/-- Without an upper bound one match more than the least number is open-ended. -/
theorem times_succ_none (lo : Nat) (M : Lang) :
    times (lo + 1) none M = (M.copies lo).seq (plus M) := by
  funext l t r g
  apply propext
  constructor
  · rintro ⟨n, hn, -, h⟩
    obtain ⟨k, rfl⟩ := Nat.exists_eq_add_of_le hn
    -- `lo` copies come first, and what is left is a number of at least one
    rw [Nat.add_assoc, copies_add] at h
    obtain ⟨t₁, t₂, g₁, g₂, ht, hg, h₁, h₂⟩ := h
    exact ⟨t₁, t₂, g₁, g₂, ht, hg, h₁, k, Nat.add_comm 1 k ▸ h₂⟩
  · rintro ⟨t₁, t₂, g₁, g₂, ht, hg, h₁, k, h₂⟩
    refine ⟨lo + (k + 1), by omega, by simp, ?_⟩
    rw [copies_add]
    exact ⟨t₁, t₂, g₁, g₂, ht, hg, h₁, h₂⟩

/-- From `lo` to `hi` matches are `lo` of them and at most the difference more. -/
theorem times_some (lo hi : Nat) (M : Lang) :
    times lo (some hi) M = (M.copies lo).seq (M.upTo (hi - lo)) := by
  funext l t r g
  apply propext
  constructor
  · rintro ⟨n, hn, hle, h⟩
    -- the copies beyond the least number are those that may be missing
    obtain ⟨k, rfl⟩ := Nat.exists_eq_add_of_le hn
    have hk := hle hi rfl
    rw [copies_add] at h
    obtain ⟨t₁, t₂, g₁, g₂, ht, hg, h₁, h₂⟩ := h
    exact ⟨t₁, t₂, g₁, g₂, ht, hg, h₁, k, by omega, h₂⟩
  · rintro ⟨t₁, t₂, g₁, g₂, ht, hg, h₁, k, hk, h₂⟩
    refine ⟨lo + k, by omega, by intro h hh; cases hh; omega, ?_⟩
    rw [copies_add]
    exact ⟨t₁, t₂, g₁, g₂, ht, hg, h₁, h₂⟩

/-- An optional match is nothing or one match. -/
theorem times_zero_one (M : Lang) : times 0 (some 1) M = nil.or M := by
  funext l t r g
  apply propext
  constructor
  · rintro ⟨n, -, hn, h⟩
    match n, hn 1 rfl with
    | 0, _ => exact .inl h
    | 1, _ => exact .inr (copies_one M ▸ h)
  · rintro (h | h)
    · exact ⟨0, Nat.le_refl 0, by simp, h⟩
    · exact ⟨1, Nat.zero_le 1, by simp, (copies_one M).symm ▸ h⟩

end Lang

/-! ## Expressions -/

def Expr.Matches : Expr → Lang
  | empty => .nil
  | set s => fun _ t _ g => ∃ c, t = [c] ∧ s.mem c = true ∧ g = []
  | look k => fun l t r g => t = [] ∧ g = [] ∧ k.holds l.getLast? r.head? = true
  | seq a b => a.Matches.seq b.Matches
  | alt a b => a.Matches.or b.Matches
  | times lo hi _ e => .times lo hi e.Matches
  | group none e => e.Matches
  | group (some name) e => fun l t r g => ∃ h, e.Matches l t r h ∧ g = (name, t) :: h

namespace Expr

/-- The language of expressions one after the other. -/
def Chain (es : List Expr) : Lang := .all (es.map Matches)

@[simp] theorem chain_nil : Chain [] = Lang.nil := rfl

@[simp] theorem chain_cons (e : Expr) (es : List Expr) :
    Chain (e :: es) = e.Matches.seq (Chain es) := rfl

theorem chain_append (es fs : List Expr) : Chain (es ++ fs) = (Chain es).seq (Chain fs) := by
  rw [Chain, List.map_append, Lang.all_append]
  rfl

/-- Taking a sequence apart keeps its language. -/
theorem chain_parts (e : Expr) : Chain e.parts = e.Matches := by
  induction e with
  | empty => rfl
  | seq a b iha ihb => rw [parts, chain_append, iha, ihb]; rfl
  | set | look | alt | times | group => exact Lang.seq_nil _

/-- Putting parts together as a sequence keeps their language. -/
theorem matches_ofParts (es : List Expr) : (ofParts es).Matches = Chain es := by
  induction es with
  | nil => rfl
  | cons e es ih =>
    cases es with
    | nil => exact (Lang.seq_nil _).symm
    | cons f fs =>
      show e.Matches.seq (ofParts (f :: fs)).Matches = _
      rw [ih]
      rfl

/-- A sequence has the language of its parts one after the other. -/
theorem matches_concat (es : List Expr) : (concat es).Matches = Chain es := by
  rw [concat, matches_ofParts]
  induction es with
  | nil => rfl
  | cons e es ih => rw [List.flatMap_cons, chain_append, chain_parts, ih]; rfl

/-! ### Runs of characters -/

/-- Copies of a set match one character each. -/
theorem copies_set (s : CharSet) (n : Nat) {l w r : Text} {g : Groups} :
    (set s).Matches.copies n l w r g ↔
      w.length = n ∧ (∀ c ∈ w, s.mem c = true) ∧ g = [] := by
  induction n generalizing l w g with
  | zero =>
    rw [List.length_eq_zero_iff]
    constructor
    · rintro ⟨rfl, rfl⟩
      simp
    · rintro ⟨rfl, -, rfl⟩
      exact ⟨rfl, rfl⟩
  | succ n ih =>
    constructor
    · rintro ⟨_, t₂, _, g₂, rfl, rfl, ⟨c, rfl, hc, rfl⟩, h⟩
      obtain ⟨hlen, hall, rfl⟩ := ih.1 h
      exact ⟨by simp [hlen], List.forall_mem_cons.2 ⟨hc, hall⟩, rfl⟩
    · rintro ⟨hlen, hall, rfl⟩
      obtain ⟨c, t, rfl⟩ := List.exists_cons_of_length_eq_add_one hlen
      obtain ⟨hc, hall⟩ := List.forall_mem_cons.1 hall
      exact ⟨[c], t, [], [], rfl, rfl, ⟨c, rfl, hc, rfl⟩,
        ih.2 ⟨Nat.succ.inj hlen, hall, rfl⟩⟩

/-- A run of characters of a set is not empty. -/
theorem matches_run (s : CharSet) {l w r : Text} {g : Groups} :
    (times 1 none true (.set s)).Matches l w r g ↔
      w ≠ [] ∧ (∀ c ∈ w, s.mem c = true) ∧ g = [] := by
  constructor
  · rintro ⟨n, hn, -, h⟩
    obtain ⟨hlen, hall, rfl⟩ := (copies_set s n).1 h
    exact ⟨List.ne_nil_of_length_pos (by omega), hall, rfl⟩
  · rintro ⟨hw, hall, rfl⟩
    exact ⟨w.length, List.length_pos_iff.2 hw, by simp, (copies_set s _).2 ⟨rfl, hall, rfl⟩⟩

end Expr

end Routing.Regex
