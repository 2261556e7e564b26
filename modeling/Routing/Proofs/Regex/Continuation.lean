import Routing.Proofs.Regex.Choice
import Routing.Proofs.Regex.Preferred

/-!
# Preferred matches of parts

What the rest of an expression can go on with tells which match a part of it prefers. Both are
worked out part by part: whether a sequence can match so that the rest can go on is whether its
first part can so that the others can, and its preferred match is that of its parts in order.

* `Expr.can_ofParts_cons`, `Expr.can_ofBranches`, `Expr.can_run`, … — which parts can match
* `Expr.Prefers.can` — a preferred match is one
* `Expr.Prefers.cons`, `Expr.prefers_text`, `Expr.prefers_run` — preferred matches of sequences
* `Expr.prefers_ofBranches` — the first branch that can match is preferred
-/

namespace Routing.Regex.Expr

variable {K : Text → Text → Prop} {l t r s : Text} {g : Groups}

/-! ## Which parts can match -/

theorem can_empty : Can .empty K = K := by
  funext l s
  apply propext
  constructor
  · rintro ⟨_, r, _, rfl, ⟨rfl, rfl⟩, hK⟩
    rwa [List.append_nil] at hK
  · intro hK
    exact ⟨[], s, [], rfl, ⟨rfl, rfl⟩, by rwa [List.append_nil]⟩

/-- A set takes one character, and the rest goes on behind it. -/
theorem can_set {x : CharSet} :
    Can (.set x) K l s ↔ ∃ c r, s = c :: r ∧ x.mem c = true ∧ K (l ++ [c]) r := by
  constructor
  · rintro ⟨_, r, _, rfl, ⟨c, rfl, hc, -⟩, hK⟩
    exact ⟨c, r, rfl, hc, hK⟩
  · rintro ⟨c, r, rfl, hc, hK⟩
    exact ⟨[c], r, [], rfl, ⟨c, rfl, hc, rfl⟩, hK⟩

/-- A place takes nothing and has to hold. -/
theorem can_look {x : Look} :
    Can (.look x) K l s ↔ x.holds l.getLast? s.head? = true ∧ K l s := by
  constructor
  · rintro ⟨_, r, _, rfl, ⟨rfl, -, hx⟩, hK⟩
    rw [List.append_nil] at hK
    exact ⟨hx, hK⟩
  · rintro ⟨hx, hK⟩
    exact ⟨[], s, [], rfl, ⟨rfl, rfl, hx⟩, by rwa [List.append_nil]⟩

/-- The second part and what follows it are what the first part has to leave room for. -/
theorem can_seq (a b : Expr) : Can (.seq a b) K = Can a (Can b K) := by
  funext l s
  apply propext
  constructor
  · rintro ⟨_, r, _, rfl, ⟨t₁, t₂, g₁, g₂, rfl, rfl, h₁, h₂⟩, hK⟩
    -- what is left to the first part is the second match with the rest
    refine ⟨t₁, t₂ ++ r, g₁, List.append_assoc .., h₁, t₂, r, g₂, rfl, h₂, ?_⟩
    rwa [List.append_assoc]
  · rintro ⟨t₁, _, g₁, rfl, h₁, t₂, r, g₂, rfl, h₂, hK⟩
    refine ⟨t₁ ++ t₂, r, g₂ ++ g₁, (List.append_assoc ..).symm,
      ⟨t₁, t₂, g₁, g₂, rfl, rfl, h₁, h₂⟩, ?_⟩
    rwa [← List.append_assoc]

theorem can_alt {a b : Expr} : Can (.alt a b) K l s ↔ Can a K l s ∨ Can b K l s := by
  constructor
  · rintro ⟨t, r, g, rfl, h | h, hK⟩
    · exact .inl ⟨t, r, g, rfl, h, hK⟩
    · exact .inr ⟨t, r, g, rfl, h, hK⟩
  · rintro (⟨t, r, g, rfl, h, hK⟩ | ⟨t, r, g, rfl, h, hK⟩)
    · exact ⟨t, r, g, rfl, .inl h, hK⟩
    · exact ⟨t, r, g, rfl, .inr h, hK⟩

/-- Whether a match is recorded makes no difference to whether there is one. -/
theorem can_group {name : Option Text} {e : Expr} :
    Can (.group name e) K l s ↔ Can e K l s := by
  cases name with
  | none => rfl
  | some name =>
    constructor
    · rintro ⟨t, r, _, rfl, ⟨g, h, rfl⟩, hK⟩
      exact ⟨t, r, g, rfl, h, hK⟩
    · rintro ⟨t, r, g, rfl, h, hK⟩
      exact ⟨t, r, _, rfl, ⟨g, h, rfl⟩, hK⟩

/-- An expression that may be missing can match, or the rest goes on in its place. -/
theorem can_optional {e : Expr} :
    Can (.times 0 (some 1) true e) K l s ↔ Can e K l s ∨ K l s := by
  rw [Can, Matches, Lang.times_zero_one]
  constructor
  · rintro ⟨t, r, g, rfl, ⟨rfl, rfl⟩ | h, hK⟩
    · rw [List.append_nil] at hK
      exact .inr hK
    · exact .inl ⟨t, r, g, rfl, h, hK⟩
  · rintro (⟨t, r, g, rfl, h, hK⟩ | hK)
    · exact ⟨t, r, g, rfl, .inr h, hK⟩
    · exact ⟨[], s, [], rfl, .inl ⟨rfl, rfl⟩, by rwa [List.append_nil]⟩

/-- A run of characters can end where the rest can go on. -/
theorem can_run {x : CharSet} : Can (.times 1 none true (.set x)) K l s ↔
    ∃ t r, s = t ++ r ∧ t ≠ [] ∧ (∀ c ∈ t, x.mem c = true) ∧ K (l ++ t) r := by
  constructor
  · rintro ⟨t, r, g, rfl, h, hK⟩
    obtain ⟨hne, hall, -⟩ := (matches_run x).1 h
    exact ⟨t, r, rfl, hne, hall, hK⟩
  · rintro ⟨t, r, rfl, hne, hall, hK⟩
    exact ⟨t, r, [], rfl, (matches_run x).2 ⟨hne, hall, rfl⟩, hK⟩

/-- The first part of a sequence is followed by the others. -/
theorem can_ofParts_cons (e : Expr) (es : List Expr) :
    Can (.ofParts (e :: es)) K = Can e (Can (.ofParts es) K) := by
  cases es with
  | nil => rw [ofParts, ofParts, can_empty]
  | cons f es => exact can_seq e _

/-- A text is followed by what can match behind it. -/
theorem can_text {text : Text} {es : List Expr} :
    Can (.ofParts ((text.map fun c => .set (.single c)) ++ es)) K l s ↔
      ∃ r, s = text ++ r ∧ Can (.ofParts es) K (l ++ text) r := by
  induction text generalizing l s with
  | nil => simp
  | cons c text ih =>
    rw [List.map_cons, List.cons_append, can_ofParts_cons, can_set]
    simp only [ih, CharSet.mem_single, decide_eq_true_eq, List.append_assoc,
      List.singleton_append]
    constructor
    · rintro ⟨_, _, rfl, rfl, r, rfl, h⟩
      exact ⟨r, rfl, h⟩
    · rintro ⟨r, rfl, h⟩
      exact ⟨c, text ++ r, rfl, rfl, r, rfl, h⟩

/-- A choice can match where one of its branches can. -/
theorem can_ofBranches {es : List Expr} :
    Can (.ofBranches es) K l s ↔ ∃ e ∈ es, Can e K l s := by
  induction es with
  | nil => simp [ofBranches, can_set, CharSet.mem_empty]
  | cons e es ih =>
    cases es with
    | nil => simp [ofBranches]
    | cons f es =>
      refine can_alt.trans ?_
      rw [ih]
      simp only [List.mem_cons, exists_eq_or_imp]

/-! ## Preferred matches -/

namespace Prefers

variable {e : Expr}

/-- The preferred match is a match, and the rest can go on behind it. -/
theorem sound (h : e.Prefers K l t r g) : e.Matches l t r g ∧ K (l ++ t) r := by
  -- one copy is a repetition of at least one
  have hcopy {e : Expr} {l t r : Text} {g : Groups} (h : e.Matches l t r g) :
      (times 1 none true e).Matches l t r g :=
    ⟨1, Nat.le_refl 1, by simp, (Lang.copies_one _).symm ▸ h⟩
  induction h with
  | empty hK => exact ⟨⟨rfl, rfl⟩, by rwa [List.append_nil]⟩
  | set hc hK => exact ⟨⟨_, rfl, hc, rfl⟩, hK⟩
  | look hx hK => exact ⟨⟨rfl, rfl, hx⟩, by rwa [List.append_nil]⟩
  | seq _ _ iha ihb =>
    refine ⟨⟨_, _, _, _, rfl, rfl, iha.1, ihb.1⟩, ?_⟩
    rw [← List.append_assoc]
    exact ihb.2
  | first _ ih => exact ⟨.inl ih.1, ih.2⟩
  | second _ _ ih => exact ⟨.inr ih.1, ih.2⟩
  | plain _ ih => exact ih
  | named _ ih => exact ⟨⟨_, ih.1, rfl⟩, ih.2⟩
  | present _ ih =>
    rw [Matches, Lang.times_zero_one]
    exact ⟨.inr ih.1, ih.2⟩
  | absent _ hK =>
    rw [Matches, Lang.times_zero_one, List.append_nil]
    exact ⟨.inl ⟨rfl, rfl⟩, hK⟩
  | last _ _ hK ih => exact ⟨hcopy ih.1, hK⟩
  | again _ _ ih ih' =>
    -- one copy more than the repetition behind it has
    obtain ⟨⟨n, hn, -, hcopies⟩, hK⟩ := ih'
    rw [← List.append_assoc]
    exact ⟨⟨n + 1, Nat.le_add_left 1 n, by simp, _, _, _, _, rfl, rfl, ih.1, hcopies⟩, hK⟩

/-- Where an expression has a preferred match it can match. -/
theorem can (h : e.Prefers K l t r g) : e.Can K l (t ++ r) :=
  ⟨t, r, g, rfl, h.sound.1, h.sound.2⟩

/-- A sequence prefers what its first part prefers, and the others behind it. -/
theorem cons {es : List Expr} {t' : Text} {g' : Groups}
    (h : e.Prefers (Can (.ofParts es) K) l t (t' ++ r) g)
    (hs : (ofParts es).Prefers K (l ++ t) t' r g') :
    (ofParts (e :: es)).Prefers K l (t ++ t') r (g' ++ g) := by
  cases es with
  | nil =>
    cases hs
    rw [ofParts, can_empty] at h
    rwa [List.append_nil]
  | cons f es => exact .seq h hs

end Prefers

/-- A text is matched, and then what stands behind it. -/
theorem prefers_text {text : Text} {es : List Expr}
    (h : (ofParts es).Prefers K (l ++ text) t r g) :
    (ofParts ((text.map fun c => .set (.single c)) ++ es)).Prefers K l (text ++ t) r g := by
  induction text generalizing l with
  | nil =>
    rw [List.append_nil] at h
    exact h
  | cons c text ih =>
    have hrest := ih (l := l ++ [c]) (by rwa [List.append_assoc])
    have hc : (CharSet.single c).mem c = true := by simp [CharSet.mem_single]
    have := Prefers.cons (.set hc (List.append_assoc text t r ▸ hrest.can)) hrest
    rwa [List.append_nil] at this

/-- A run of characters is as long as it can be where the rest goes on with another character. -/
theorem prefers_run {x : CharSet} (ht : t ≠ []) (hall : ∀ c ∈ t, x.mem c = true)
    (hr : ∀ c ∈ r.head?, x.mem c = false) (hK : K (l ++ t) r) :
    (times 1 none true (.set x)).Prefers K l t r [] := by
  induction t generalizing l with
  | nil => exact absurd rfl ht
  | cons c t ih =>
    obtain ⟨hc, hall⟩ := List.forall_mem_cons.1 hall
    cases t with
    | nil =>
      -- after the last character another round would need one that the set does not hold
      refine .last (.set hc (.inr hK)) ?_ hK
      rw [can_run]
      rintro ⟨t, r', rfl, hne, hall, -⟩
      obtain ⟨d, t, rfl⟩ := List.exists_cons_of_ne_nil hne
      have hd := hr d rfl
      rw [hall d List.mem_cons_self] at hd
      cases hd
    | cons d t =>
      -- the shorter run is what lets this round go on
      have hrest := ih (l := l ++ [c]) (by simp) hall (by rwa [List.append_assoc])
      exact .again (t := [c]) (.set hc (.inl hrest.can)) hrest

/-- Of several branches the first one that can match is preferred. -/
theorem prefers_ofBranches {before after : List Expr} {e : Expr}
    (hbefore : ∀ b ∈ before, ¬ Can b K l (t ++ r)) (h : e.Prefers K l t r g) :
    (ofBranches (before ++ e :: after)).Prefers K l t r g := by
  induction before with
  | nil =>
    cases after with
    | nil => exact h
    | cons f after => exact .first h
  | cons b before ih =>
    -- the branches before the chosen one cannot match, and are passed over one by one
    obtain ⟨hb, hbefore⟩ := List.forall_mem_cons.1 hbefore
    have hrest := ih hbefore
    have hsecond := Prefers.second hb hrest
    cases before <;> exact hsecond

end Routing.Regex.Expr
