import Mathlib
import Routing.Proofs.Regex.Binding
import Routing.Proofs.Steps
import Routing.Regex

/-!
# Reduced expressions

What a text means is reduced: a sequence holds no empty parts and is nested to the right, so that it
is the sequence of its parts. How large a sequence is can therefore be told from its parts, and how
large a choice is from its branches.

* `Expr.Reduced` — the expression is the sequence of its parts
* `Syntax.reduced_meaning` — what a text means is reduced
* `Expr.cost_ofBranches` — the size of a choice
* `Expr.fits_of_anchored` — an expression is not larger than what it is between anchors
-/

namespace Routing.Regex

namespace Expr

/-! ## Sequences -/

/-- The expression is the sequence of its parts. -/
def Reduced (e : Expr) : Prop := ofParts e.parts = e

/-- A part of an expression has no parts but itself. -/
theorem parts_of_mem_parts {e p : Expr} (h : p ∈ e.parts) : p.parts = [p] := by
  induction e with
  | empty => cases h
  | seq a b iha ihb => exact (List.mem_append.1 h).elim iha ihb
  | set | look | alt | times | group =>
    rw [List.mem_singleton.1 h]
    rfl

/-- What is put together of such parts has them as its parts. -/
theorem parts_ofParts {ps : List Expr} (h : ∀ p ∈ ps, p.parts = [p]) : (ofParts ps).parts = ps := by
  induction ps with
  | nil => rfl
  | cons p ps ih =>
    obtain ⟨hp, hps⟩ := List.forall_mem_cons.1 h
    cases ps with
    | nil => exact hp
    | cons q qs =>
      rw [ofParts, parts, hp, ih hps]
      · rfl
      · simp

/-- A sequence is put together of the parts of its items, so it is reduced. -/
theorem reduced_concat (es : List Expr) : (concat es).Reduced := by
  rw [Reduced, concat, parts_ofParts]
  intro p hp
  obtain ⟨e, -, hp⟩ := List.mem_flatMap.1 hp
  exact parts_of_mem_parts hp

/-! ## Choices and repetitions -/

/-- Every expression has a branch, be it itself. -/
theorem branches_ne_nil (e : Expr) : e.branches ≠ [] := by
  induction e with
  | alt a b iha ihb => simp [branches, iha]
  | empty | seq | set | look | times | group => simp [branches]

/-- An expression with one branch is that branch. -/
theorem eq_of_branches {e b : Expr} (h : e.branches = [b]) : e = b := by
  cases e with
  | alt a c =>
    -- two branches at least, which is one too many
    rw [branches, List.append_eq_singleton_iff] at h
    rcases h with ⟨ha, -⟩ | ⟨-, hc⟩
    · exact absurd ha (branches_ne_nil a)
    · exact absurd hc (branches_ne_nil c)
  | empty | seq | set | look | times | group => exact List.singleton_inj.1 h

/-- Items with one branch between them are that branch alone. -/
theorem mem_of_flatMap_branches {es : List Expr} {b : Expr} (h : es.flatMap branches = [b]) :
    b ∈ es := by
  cases es with
  | nil => cases h
  | cons e es =>
    rw [List.flatMap_cons, List.append_eq_singleton_iff] at h
    rcases h with ⟨he, -⟩ | ⟨he, -⟩
    · exact absurd he (branches_ne_nil e)
    · exact eq_of_branches he ▸ List.mem_cons_self

/-- A choice of reduced branches is reduced. -/
theorem reduced_ofBranches {es : List Expr} (h : ∀ e ∈ es, e.Reduced) :
    (ofBranches es).Reduced := by
  match es with
  | [] => rfl
  | [e] => exact h e List.mem_cons_self
  | _ :: _ :: _ => rfl

/-- However a choice is made simpler, by pulling out what its branches begin with or by dropping
copies, the result is reduced. -/
theorem reduced_choiceOf {es : List Expr} (h : ∀ e ∈ es, e.Reduced) (fuel : Nat) :
    (choiceOf fuel es).Reduced := by
  cases fuel with
  | zero => exact reduced_ofBranches h
  | succ fuel =>
    rw [choiceOf]
    split
    · rfl
    · next e he => exact h e (mem_of_flatMap_branches he)
    · next bs hnil hone =>
      split
      · rfl
      · split
        · exact reduced_concat _
        · match hbs : es.flatMap branches with
          | [] => rfl
          | [e] => exact absurd hbs (hone e)
          | _ :: _ :: _ => rfl

/-- A repetition is reduced, or is its body or nothing. -/
theorem reduced_repeated {e : Expr} (h : e.Reduced) (lo : Nat) (hi : Option Nat) (greedy : Bool) :
    (repeated lo hi greedy e).Reduced := by
  rw [repeated]
  split
  repeat' split
  · rfl
  · exact h
  · rfl

end Expr

/-! ## Meanings -/

/-- A group is a part of its own, and one that only changes flags is its body. -/
theorem GroupKind.reduced_wrap {e : Expr} (h : e.Reduced) (kind : GroupKind) :
    (kind.wrap e).Reduced := by
  cases kind with
  | flagged => exact h
  | plain | named => rfl

/-- That an expression is reduced is passed on from its parts. -/
theorem Syntax.inherited_reduced : Inherited fun _ e => e.Reduced where
  empty _ := rfl
  set _ _ := rfl
  look _ _ := rfl
  group kind _ _ h := GroupKind.reduced_wrap h kind
  times lo hi _ greedy' _ _ h := Expr.reduced_repeated h lo hi greedy'
  seq _ := Expr.reduced_concat _
  alt h := by
    apply Expr.reduced_choiceOf
    induction h with
    | nil => simp
    | cons he _ ih => exact List.forall_mem_cons.2 ⟨he, ih⟩

/-- What a text means is reduced. -/
theorem Syntax.reduced_meaning [Properties] {s : Syntax} {f f' : Flags} {e : Expr}
    (h : s.meaning f = .ok (e, f')) : e.Reduced :=
  inherited_reduced.meaning s h

/-! ## Size -/

namespace Expr

section Cost

variable {d : Direction} {setSize : CharSet → Nat}

/-- A sequence is as large as its parts together. -/
theorem cost_ofParts {ps : List Expr} (h : ps ≠ []) :
    (ofParts ps).cost d setSize false = (ps.map (cost d setSize false)).sum := by
  induction ps with
  | nil => exact absurd rfl h
  | cons p ps ih =>
    cases ps with
    | nil => simp [ofParts]
    | cons q qs =>
      have hcost : (ofParts (p :: q :: qs)).cost d setSize false =
          p.cost d setSize false + (ofParts (q :: qs)).cost d setSize false := rfl
      rw [hcost, ih (by simp), List.map_cons (l := q :: qs), List.sum_cons]

/-- The size of an expression that is no choice does not hang on its place in one. -/
theorem cost_of_branches {e : Expr} (h : e.branches = [e]) (within : Bool) :
    e.cost d setSize within = e.cost d setSize false := by
  cases e with
  | alt a b =>
    -- a choice has two branches at least
    have hlen := congrArg List.length h
    have ha := List.length_pos_iff.2 (branches_ne_nil a)
    have hb := List.length_pos_iff.2 (branches_ne_nil b)
    rw [branches, List.length_append, List.length_singleton] at hlen
    omega
  | empty | set | look | seq | times | group => rfl

/-- What is put together of branches has them as its branches. -/
theorem branches_ofBranches {es : List Expr} (h : ∀ e ∈ es, e.branches = [e]) (hne : es ≠ []) :
    (ofBranches es).branches = es := by
  induction es with
  | nil => exact absurd rfl hne
  | cons e es ih =>
    obtain ⟨he, hes⟩ := List.forall_mem_cons.1 h
    cases es with
    | nil => exact he
    | cons e' es =>
      rw [ofBranches, branches, he, ih hes (List.cons_ne_nil _ _), List.singleton_append]
      simp

/-- A choice that is not one of literal texts. -/
theorem cost_alt {a b : Expr} {within : Bool}
    (h : within = true ∨ (alt a b).branches.mapM bytes? = none) :
    (alt a b).cost d setSize within ≤
      (if within then 0 else 64) + 8 + a.cost d setSize false + b.cost d setSize true := by
  have hwords : (if within then none else (alt a b).branches.mapM bytes?) = none := by
    rcases h with rfl | h
    · rfl
    · rw [h, ite_self]
  rw [cost.eq_def]
  simp only [hwords, Footprint.state, Footprint.way, Nat.reduceMul]
  cases b <;> simp only <;> omega

/-- The rest of a choice. -/
theorem cost_ofBranches {es : List Expr} (h : ∀ e ∈ es, e.branches = [e]) (hne : es ≠ []) :
    (ofBranches es).cost d setSize true ≤ (es.map fun e => e.cost d setSize false + 8).sum := by
  induction es with
  | nil => exact absurd rfl hne
  | cons e es ih =>
    obtain ⟨he, hes⟩ := List.forall_mem_cons.1 h
    cases es with
    | nil =>
      rw [ofBranches, cost_of_branches he, List.map_singleton, List.sum_singleton]
      exact Nat.le_add_right _ 8
    | cons e' es =>
      have hrest := ih hes (List.cons_ne_nil _ _)
      have halt : (alt e (ofBranches (e' :: es))).cost d setSize true ≤ _ := cost_alt (.inl rfl)
      rw [if_pos rfl] at halt
      rw [List.map_cons, List.sum_cons]
      exact Nat.le_trans halt (by omega)

/-- Anchors around a reduced expression do not make it smaller. -/
theorem cost_le_anchored {e : Expr} (h : e.Reduced) (l r : Look) :
    e.cost d setSize false ≤ (concat [.look l, e, .look r]).cost d setSize false := by
  have hparts : concat [.look l, e, .look r] = ofParts (.look l :: e.parts ++ [.look r]) := by
    simp [concat, parts]
  rw [hparts, cost_ofParts (by simp)]
  simp only [List.cons_append, List.map_cons, List.map_append, List.sum_cons, List.sum_append]
  -- the empty expression is no part, and is as small as an anchor
  cases hp : e.parts with
  | nil =>
    rw [← h, hp, ofParts, cost, cost]
    omega
  | cons p ps =>
    have hcost : e.cost d setSize false = ((p :: ps).map (cost d setSize false)).sum := by
      rw [← cost_ofParts (by simp), ← hp, h]
    omega

end Cost

/-- What fits between anchors fits alone. -/
theorem fits_of_anchored {e : Expr} (h : e.Reduced) {l r : Look}
    (hfits : (concat [.look l, e, .look r]).fits = true) : e.fits = true := by
  rw [fits, List.all_eq_true] at hfits ⊢
  intro d hd
  have hsize (setSize : CharSet → Nat) :
      e.size d setSize ≤ (concat [.look l, e, .look r]).size d setSize :=
    Nat.add_le_add_left (cost_le_anchored h l r) _
  have h₁ := hsize CharSet.sizeBound
  have h₂ := hsize d.setSize
  have hd' := hfits d hd
  simp only [Bool.or_eq_true, decide_eq_true_eq] at hd' ⊢
  omega

end Expr

end Routing.Regex
