import Routing.Proofs.Namespaces
import Routing.Proofs.Regex.Continuation
import Routing.Proofs.Regex.Yielding
import Routing.Proofs.Text.Utf8

/-!
# The order of the alternatives

The requirement on controllers has one alternative for each text that a controller name may stand
behind: nothing, or a namespace and a slash. They are sorted by the size of their expressions, so
that of two such texts that begin alike the longer one is tried first.

* `Namespaces.starts` — the texts that a controller name may stand behind
* `Namespaces.inOrder`, `Namespaces.spells_source` — the alternatives in order
* `Namespaces.source_of_perm` — there is one order in which each stands before the next
* `Namespaces.standsBefore_append` — a longer text stands before what it begins with
* `Namespaces.exists_preferred` — the first alternative that meets a condition is the longest
-/

namespace Routing

open Regex

namespace Regex

theorem quote_append (s t : Text) : quote (s ++ t) = quote s ++ quote t := List.flatMap_append

theorem quote_ne_nil {s : Text} (hs : s ≠ []) : quote s ≠ [] := by
  obtain ⟨c, s, rfl⟩ := List.exists_cons_of_ne_nil hs
  have hcons : quote (c :: s) = (if isMeta c then ['\\', c] else [c]) ++ quote s := rfl
  rw [hcons]
  split <;> simp

end Regex

namespace Namespaces

/-! ## Alternatives -/

/-- The texts that a controller name may stand behind. -/
def starts [Properties] (n : Namespaces) : List Text := n.names.map (· ++ ['/']) ++ [[]]

/-- The expression for the controllers that begin with a text. -/
def startingWith (start : Text) : Text := quote start ++ controllerName

/-- A controller name. -/
def nameExpr : Expr := .times 1 none true (.set (Slot.chars controllerKey false))

/-- The parts of the expression for the controllers that begin with a text. -/
def startParts (start : Text) : List Expr :=
  (start.map fun c => .set (.single c)) ++ [nameExpr]

/-- The texts that a controller name may stand behind, in the order of the alternatives. -/
def inOrder [Properties] (n : Namespaces) : List Text :=
  n.starts.mergeSort fun a b => standsBefore (startingWith a) (startingWith b)

/-- The alternatives for a controller. -/
def controllerExpr [Properties] (n : Namespaces) : Expr :=
  .ofBranches (n.inOrder.map fun start => .ofParts (startParts start))

theorem mem_inOrder [Properties] {n : Namespaces} {start : Text} :
    start ∈ n.inOrder ↔ start ∈ n.starts :=
  List.mem_mergeSort

theorem mem_starts [Properties] {n : Namespaces} {start : Text} :
    start ∈ n.starts ↔ (∃ ns ∈ n.names, start = ns ++ ['/']) ∨ start = [] := by
  rw [starts, List.mem_append, List.mem_map, List.mem_singleton]
  simp only [eq_comm]

/-- The source is made of the alternatives in order. -/
theorem source_eq [Properties] (n : Namespaces) :
    n.source = ['|'].intercalate (n.inOrder.map startingWith) := by
  have hstart (ns : Text) : startingWith (ns ++ ['/']) = alternative ns := by
    rw [startingWith, quote_append]
    rfl
  have hstarts : n.starts.map startingWith = n.names.map alternative ++ [controllerName] := by
    rw [starts, List.map_append, List.map_map]
    simp only [Function.comp_def, hstart]
    rfl
  rw [source, inOrder, List.map_mergeSort (s := standsBefore) fun _ _ _ _ => rfl, hstarts]

theorem branches_startParts {start : Text} : ∀ e ∈ startParts start, e.branches = [e] := by
  intro e he
  rcases List.mem_append.1 he with he | he
  · obtain ⟨c, -, rfl⟩ := List.mem_map.1 he
    rfl
  · rw [List.mem_singleton.1 he]
    rfl

theorem spells_startingWith [Properties] (start : Text) :
    Spells (startingWith start) (startParts start) [] 3 :=
  (Spells.quoted start).append Slot.spells_controllerName (by decide)

/-- The fragment of the requirement spells the choice of the alternatives in order. -/
theorem spells_source [Properties] (n : Namespaces) :
    ∃ depth ≤ 6, Spells (Requirement.fragmentOf n.source false false)
      [n.controllerExpr] [] depth := by
  let bs := n.inOrder.map fun start => (startingWith start, startParts start)
  have hspells : ∀ b ∈ bs, ∃ depth ≤ 3, Spells b.1 b.2 [] depth := by
    rw [List.forall_mem_map]
    exact fun start _ => ⟨3, Nat.le_refl 3, spells_startingWith start⟩
  have hbranches : ∀ b ∈ bs, ∀ e ∈ b.2, e.branches = [e] := by
    rw [List.forall_mem_map]
    exact fun start _ => branches_startParts
  have hbare : (startingWith [], [nameExpr]) ∈ bs := by
    have hnil : ([] : Text) ∈ n.inOrder := mem_inOrder.2 (mem_starts.2 (.inr rfl))
    exact List.mem_map_of_mem hnil
  have h := Spells.oneOf hspells hbranches hbare rfl
  rw [List.map_map, List.map_map] at h
  have hfragment : Requirement.fragmentOf n.source false false =
      "(?:".toList ++ n.source ++ [')'] := by simp [Requirement.fragmentOf]
  rw [hfragment, source_eq]
  exact h

theorem yields_source [Properties] (n : Namespaces) :
    Yields (Requirement.fragmentOf n.source false false) [n.controllerExpr] [] := by
  obtain ⟨_, -, h⟩ := n.spells_source
  exact .of_spells h

/-! ## The order -/

/-- A longer text stands first, and of two as long the greater one. -/
theorem standsBefore_iff {a b : Text} :
    standsBefore a b = true ↔ Utf8.size b < Utf8.size a ∨ Utf8.size b = Utf8.size a ∧ ¬ a < b := by
  simp [standsBefore]

theorem standsBefore_total (a b : Text) : (standsBefore a b || standsBefore b a) = true := by
  rw [Bool.or_eq_true, standsBefore_iff, standsBefore_iff]
  rcases Nat.lt_trichotomy (Utf8.size a) (Utf8.size b) with h | h | h
  · exact .inr (.inl h)
  · by_cases hlt : a < b
    · exact .inr (.inr ⟨h, List.not_lt.2 (List.le_of_lt hlt)⟩)
    · exact .inl (.inr ⟨h.symm, hlt⟩)
  · exact .inl (.inl h)

/-- The order is transitive. -/
theorem standsBefore_trans {a b c : Text} (hab : standsBefore a b = true)
    (hbc : standsBefore b c = true) : standsBefore a c = true := by
  rw [standsBefore_iff] at hab hbc ⊢
  rcases hab with hab | ⟨hab, hlt⟩ <;> rcases hbc with hbc | ⟨hbc, hlt'⟩
  · exact .inl (Nat.lt_trans hbc hab)
  · exact .inl (hbc ▸ hab)
  · exact .inl (hab ▸ hbc)
  · have hle := List.le_trans (List.not_lt.1 hlt') (List.not_lt.1 hlt)
    exact .inr ⟨hbc.trans hab, List.not_lt.2 hle⟩

/-- Two texts that stand before each other are the same. -/
theorem standsBefore_antisymm {a b : Text} (hab : standsBefore a b = true)
    (hba : standsBefore b a = true) : a = b := by
  rw [standsBefore_iff] at hab hba
  rcases hab with hab | ⟨heq, hab⟩ <;> rcases hba with hba | ⟨heq', hba⟩
  · exact absurd hab (Nat.lt_asymm hba)
  · exact absurd heq' (Nat.ne_of_gt hab)
  · exact absurd heq (Nat.ne_of_gt hba)
  · exact List.le_antisymm (List.not_lt.1 hba) (List.not_lt.1 hab)

/-- The expression has the alternatives in the one order in which each stands before the next. -/
theorem source_of_perm [Properties] {n : Namespaces} {alternatives : List Text}
    (hperm : alternatives.Perm (n.names.map alternative ++ [controllerName]))
    (hsorted : alternatives.Pairwise fun a b => standsBefore a b = true) :
    n.source = ['|'].intercalate alternatives := by
  have horder : (n.names.map alternative ++ [controllerName]).mergeSort standsBefore =
      alternatives := by
    refine List.Perm.eq_of_pairwise (fun _ _ _ _ => standsBefore_antisymm) ?_ hsorted
      ((List.mergeSort_perm _ _).trans hperm.symm)
    apply List.pairwise_mergeSort
    · exact fun a b c => standsBefore_trans
    · exact standsBefore_total
  rw [source, horder]

/-- The starts are sorted by their alternatives. -/
theorem pairwise_inOrder [Properties] (n : Namespaces) : n.inOrder.Pairwise fun a b =>
    standsBefore (startingWith a) (startingWith b) = true := by
  apply List.pairwise_mergeSort
  · exact fun a b c => standsBefore_trans
  · exact fun a b => standsBefore_total (startingWith a) (startingWith b)

/-- A text does not stand before one that goes on after it. -/
theorem standsBefore_append {start more : Text} (hmore : more ≠ []) :
    standsBefore (startingWith start) (startingWith (start ++ more)) = false := by
  apply Bool.eq_false_iff.2
  intro h
  have hsize : Utf8.size (startingWith start) < Utf8.size (startingWith (start ++ more)) := by
    have := Utf8.size_pos (quote_ne_nil hmore)
    rw [startingWith, startingWith, quote_append]
    simp only [Utf8.size_append]
    omega
  rw [standsBefore_iff] at h
  omega

/-- The first alternative that meets a condition is the longest of those that begin alike. -/
theorem exists_preferred [Properties] {n : Namespaces} {P : Text → Prop}
    (h : ∃ start ∈ n.starts, P start) :
    ∃ before start after, n.inOrder = before ++ start :: after ∧ P start ∧
      (∀ other ∈ before, ¬ P other) ∧
      ∀ more, start ++ more ∈ n.starts → P (start ++ more) → more = [] := by
  classical
  obtain ⟨start, hstart, hP⟩ := h
  have hsome : (n.inOrder.find? fun start => decide (P start)).isSome :=
    List.find?_isSome.2 ⟨start, mem_inOrder.2 hstart, decide_eq_true hP⟩
  obtain ⟨start, hfound⟩ := Option.isSome_iff_exists.1 hsome
  obtain ⟨hP, before, after, horder, hbefore⟩ := List.find?_eq_some_iff_append.1 hfound
  have hbefore : ∀ other ∈ before, ¬ P other := by simpa using hbefore
  refine ⟨before, start, after, horder, of_decide_eq_true hP, hbefore, fun more hmem hmore => ?_⟩
  by_contra hne
  -- a start that goes on with more would have to come later, but is longer
  have hlater : start ++ more ∈ after := by
    have := mem_inOrder.2 hmem
    rw [horder, List.mem_append, List.mem_cons] at this
    rcases this with h | h | h
    · exact absurd hmore (hbefore _ h)
    · exact absurd (List.append_right_eq_self.1 h) hne
    · exact h
  have hsorted := n.pairwise_inOrder
  rw [horder, List.pairwise_append] at hsorted
  have hfirst := (List.pairwise_cons.1 hsorted.2.1).1 _ hlater
  rw [standsBefore_append hne] at hfirst
  cases hfirst

end Namespaces

end Routing
