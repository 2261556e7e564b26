import Mathlib.Data.List.Forall2
import Routing.Proofs.Regex.Choice
import Routing.Proofs.Steps
import Routing.Regex.Meaning

/-!
# What a match binds

A match binds the names of the groups that are written in the expression, and no others.

* `Syntax.names` — the names of the groups of an expression as written
* `Lang.Binds` — a language binds these names only
* `Syntax.Inherited`, `Syntax.Inherited.meaning` — what holds of an expression and its meaning when
  it holds of their parts
* `Syntax.binds_meaning` — what an expression means binds its names only
-/

namespace Routing.Regex

/-! ## Languages -/

namespace Lang

/-- The matches bind these names only. -/
def Binds (M : Lang) (names : List Text) : Prop :=
  ∀ l t r g, M l t r g → ∀ p ∈ g, p.1 ∈ names

variable {M N : Lang} {Ms : List Lang} {names names' : List Text}

theorem Binds.mono (h : M.Binds names) (hsub : names ⊆ names') : M.Binds names' :=
  fun l t r g hM p hp => hsub (h l t r g hM p hp)

theorem binds_nil : nil.Binds names := by
  intro l t r g hM p hp
  obtain ⟨-, rfl⟩ := hM
  cases hp

/-- A sequence binds what its two parts bind. -/
theorem Binds.seq (h : M.Binds names) (h' : N.Binds names) : (M.seq N).Binds names := by
  intro l t r g hM p hp
  obtain ⟨t₁, t₂, g₁, g₂, rfl, rfl, h₁, h₂⟩ := hM
  rcases List.mem_append.1 hp with hp | hp
  · exact h' _ _ _ _ h₂ p hp
  · exact h _ _ _ _ h₁ p hp

theorem Binds.copies (h : M.Binds names) (n : Nat) : (M.copies n).Binds names := by
  induction n with
  | zero => exact binds_nil
  | succ n ih => exact h.seq ih

/-- A repetition binds what its body binds. -/
theorem Binds.times (h : M.Binds names) (lo : Nat) (hi : Option Nat) :
    (Lang.times lo hi M).Binds names := by
  intro l t r g hM
  obtain ⟨n, -, -, hM⟩ := hM
  exact h.copies n l t r g hM

/-- A sequence of many parts binds what any of them may bind. -/
theorem Binds.all (h : ∀ M ∈ Ms, M.Binds names) : (Lang.all Ms).Binds names := by
  induction Ms with
  | nil => exact binds_nil
  | cons M Ms ih =>
    obtain ⟨hM, hMs⟩ := List.forall_mem_cons.1 h
    exact hM.seq (ih hMs)

theorem Binds.any (h : ∀ M ∈ Ms, M.Binds names) : (Lang.any Ms).Binds names := by
  intro l t r g hM
  obtain ⟨M, hmem, hM⟩ := hM
  exact h M hmem l t r g hM

end Lang

/-! ## Names as written -/

mutual

def Syntax.names : Syntax → List Text
  | .group (.named name) body => name :: body.names
  | .group _ body => body.names
  | .times _ _ _ body => body.names
  | .seq items => Syntax.allNames items
  | .alt branches => Syntax.allNames branches
  | .empty | .char _ _ | .dot | .anchor _ | .short _ _ | .property _ _ => []
  | .bracket _ _ | .flags _ => []

/-- The names of the groups of several expressions. -/
def Syntax.allNames : List Syntax → List Text
  | [] => []
  | item :: items => item.names ++ Syntax.allNames items

end

namespace Syntax

/-- A name is among those of several expressions when one of them has it. -/
theorem mem_allNames {items : List Syntax} {n : Text} :
    n ∈ allNames items ↔ ∃ item ∈ items, n ∈ item.names := by
  induction items with
  | nil => simp [allNames]
  | cons item items ih => simp [allNames, ih]

/-- Putting items together to a sequence keeps their names. -/
theorem names_ofItems (items : List Syntax) : (ofItems items).names = allNames items := by
  match items with
  | [] => rfl
  | [item] => simp [ofItems, allNames]
  | item :: item' :: items => rfl

/-- Putting branches together to a choice keeps their names. -/
theorem names_ofBranches (branches : List Syntax) :
    (ofBranches branches).names = allNames branches := by
  match branches with
  | [] => rfl
  | [branch] => simp [ofBranches, allNames]
  | branch :: branch' :: branches => rfl

end Syntax

/-! ## Meanings -/

namespace Syntax

/-- What is written and what it means are related whenever their parts are. -/
structure Inherited (P : Syntax → Expr → Prop) : Prop where
  empty : ∀ s, P s .empty
  set : ∀ s set, P s (.set set)
  look : ∀ s x, P s (.look x)
  group : ∀ kind {body e}, P body e → P (.group kind body) (kind.wrap e)
  times : ∀ lo hi greedy greedy' {body e}, P body e →
    P (.times lo hi greedy body) (.repeated lo hi greedy' e)
  seq : ∀ {items es}, List.Forall₂ P items es → P (.seq items) (.concat es)
  alt : ∀ {branches es}, List.Forall₂ P branches es → P (.alt branches) (.choice es)

/-- Items mean something when the first does and the others do under the flags it leaves. -/
theorem meanings_cons [Properties] {f f' : Flags} {item : Syntax} {items : List Syntax}
    {es : List Expr} :
    Syntax.meanings f (item :: items) = .ok (es, f') ↔
      ∃ e g es', item.meaning f = .ok (e, g) ∧ Syntax.meanings g items = .ok (es', f') ∧
        es = e :: es' := by
  rw [Syntax.meanings]
  constructor
  · intro h
    obtain ⟨⟨e, g⟩, hitem, h⟩ := bind_eq_ok.1 h
    obtain ⟨⟨es', g'⟩, hitems, h⟩ := bind_eq_ok.1 h
    cases h
    exact ⟨e, g, es', hitem, hitems, rfl⟩
  · intro ⟨e, g, es', hitem, hitems, hes⟩
    rw [hes, hitem]
    exact bind_eq_ok.2 ⟨_, rfl, bind_eq_ok.2 ⟨_, hitems, rfl⟩⟩

end Syntax

/-- Whatever the flags, what a character means is a set. -/
theorem charMeaning_eq_ok {f : Flags} {c : Char} {byte : Bool} {e : Expr}
    (h : charMeaning f c byte = .ok e) : ∃ set, e = .set set := by
  rw [charMeaning] at h
  split at h
  · cases h
  · cases h
    exact ⟨_, rfl⟩

/-- Whatever the flags, what a dot means is a set. -/
theorem dotMeaning_eq_ok {f : Flags} {e : Expr} (h : dotMeaning f = .ok e) :
    ∃ set, e = .set set := by
  rw [dotMeaning] at h
  split at h
  · cases h
  · split at h
    · cases h
      exact ⟨_, rfl⟩
    · split at h <;> cases h <;> exact ⟨_, rfl⟩

section Inherited

variable [Properties] {P : Syntax → Expr → Prop}

mutual

/-- What is written is related to what it means under any flags. -/
theorem Syntax.Inherited.meaning (hP : Inherited P) (s : Syntax) {f f' : Flags} {e : Expr}
    (h : s.meaning f = .ok (e, f')) : P s e := by
  cases s with
  | empty | flags =>
    rw [Syntax.meaning] at h
    cases h
    exact hP.empty _
  | char c byte =>
    rw [Syntax.meaning] at h
    obtain ⟨e, he, h⟩ := bind_eq_ok.1 h
    cases h
    obtain ⟨set, rfl⟩ := charMeaning_eq_ok he
    exact hP.set _ set
  | dot =>
    rw [Syntax.meaning] at h
    obtain ⟨e, he, h⟩ := bind_eq_ok.1 h
    cases h
    obtain ⟨set, rfl⟩ := dotMeaning_eq_ok he
    exact hP.set _ set
  | anchor kind =>
    rw [Syntax.meaning] at h
    cases h
    exact hP.look _ _
  | short kind negated | property p negated =>
    rw [Syntax.meaning] at h
    obtain ⟨set, -, h⟩ := bind_eq_ok.1 h
    cases h
    exact hP.set _ set
  | bracket negated body =>
    rw [Syntax.meaning] at h
    obtain ⟨set, -, h⟩ := bind_eq_ok.1 h
    -- a class that matches nothing is refused, any other one means a set
    obtain ⟨set', -, h⟩ := bind_eq_ok.1 h
    cases h
    exact hP.set _ set'
  | group kind body =>
    rw [Syntax.meaning] at h
    obtain ⟨⟨e, f''⟩, he, h⟩ := bind_eq_ok.1 h
    cases h
    exact hP.group kind (Syntax.Inherited.meaning hP body he)
  | times lo hi greedy body =>
    rw [Syntax.meaning] at h
    obtain ⟨⟨e, f''⟩, he, h⟩ := bind_eq_ok.1 h
    cases h
    exact hP.times lo hi greedy _ (Syntax.Inherited.meaning hP body he)
  | seq items =>
    rw [Syntax.meaning] at h
    obtain ⟨⟨es, f''⟩, hes, h⟩ := bind_eq_ok.1 h
    cases h
    exact hP.seq (Syntax.Inherited.meanings hP items hes)
  | alt branches =>
    rw [Syntax.meaning] at h
    obtain ⟨⟨es, f''⟩, hes, h⟩ := bind_eq_ok.1 h
    cases h
    exact hP.alt (Syntax.Inherited.meanings hP branches hes)

/-- Items are related one by one to what they mean, each under the flags that those before it leave.
-/
theorem Syntax.Inherited.meanings (hP : Inherited P) (items : List Syntax) {f f' : Flags}
    {es : List Expr} (h : Syntax.meanings f items = .ok (es, f')) : List.Forall₂ P items es := by
  cases items with
  | nil =>
    rw [Syntax.meanings] at h
    cases h
    exact .nil
  | cons item items =>
    obtain ⟨e, g, es', he, hes, rfl⟩ := meanings_cons.1 h
    exact .cons (Syntax.Inherited.meaning hP item he) (Syntax.Inherited.meanings hP items hes)

end

end Inherited

/-! ## Names that are bound -/

theorem Expr.binds_set (s : CharSet) : (Expr.set s).Matches.Binds [] := by
  intro l t r g hM p hp
  obtain ⟨c, -, -, rfl⟩ := hM
  cases hp

theorem Expr.binds_look (k : Look) : (Expr.look k).Matches.Binds [] := by
  intro l t r g hM p hp
  obtain ⟨-, rfl, -⟩ := hM
  cases hp

/-- A repetition binds what its body does, in whichever way it is made simpler. -/
theorem Expr.binds_repeated {e : Expr} {names : List Text} (h : e.Matches.Binds names) (lo : Nat)
    (hi : Option Nat) (greedy : Bool) : (Expr.repeated lo hi greedy e).Matches.Binds names := by
  rw [repeated]
  simp only
  -- bounds are cut down for a body that takes no text, which no case below depends on
  generalize (if e.greatest = some 0 then _ else (lo, hi)) = bounds
  split
  · exact Lang.binds_nil
  · split
    · exact h
    · exact h.times _ _

/-- A group binds what its body does, and its own name if it has one. -/
theorem GroupKind.binds_wrap {kind : GroupKind} {body : Syntax} {e : Expr}
    (h : e.Matches.Binds body.names) :
    (kind.wrap e).Matches.Binds (Syntax.group kind body).names := by
  cases kind with
  | plain => exact h
  | flagged change => exact h
  | named name =>
    intro l t r g hM p hp
    obtain ⟨g', hM, rfl⟩ := hM
    rcases List.mem_cons.1 hp with rfl | hp
    · exact List.mem_cons_self
    · exact List.mem_cons_of_mem _ (h l t r g' hM p hp)

/-- Each part binds its own names, which are among the names of all. -/
theorem Syntax.binds_of_forall₂ {items : List Syntax} {es : List Expr}
    (h : List.Forall₂ (fun s e => e.Matches.Binds s.names) items es) :
    ∀ M ∈ es.map Expr.Matches, M.Binds (Syntax.allNames items) := by
  induction h with
  | nil => simp
  | @cons item e items es he _ ih =>
    rw [List.map_cons, Syntax.allNames]
    exact List.forall_mem_cons.2 ⟨he.mono (List.subset_append_left _ _),
      fun M hM => (ih M hM).mono (List.subset_append_right _ _)⟩

/-- That the names written are the only ones bound is passed on from the parts to the whole. -/
theorem Syntax.inherited_binds : Inherited fun s e => e.Matches.Binds s.names where
  empty _ := Lang.binds_nil
  set _ set := (Expr.binds_set set).mono (List.nil_subset _)
  look _ x := (Expr.binds_look x).mono (List.nil_subset _)
  group _ _ _ h := GroupKind.binds_wrap h
  times lo hi _ greedy' _ _ h := Expr.binds_repeated h lo hi greedy'
  seq h := by
    rw [Expr.matches_concat]
    exact .all (binds_of_forall₂ h)
  alt h := by
    rw [Expr.matches_choice]
    exact .any (binds_of_forall₂ h)

/-- What an expression means binds its names only. -/
theorem Syntax.binds_meaning [Properties] {s : Syntax} {f f' : Flags} {e : Expr}
    (h : s.meaning f = .ok (e, f')) : e.Matches.Binds s.names :=
  inherited_binds.meaning s h

end Routing.Regex
