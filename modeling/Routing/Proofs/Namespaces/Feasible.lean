import Routing.Proofs.Namespaces.Order
import Routing.Proofs.Path.Slash
import Routing.Proofs.Route.RoundTrip
import Routing.Proofs.Template.Slashed

/-!
# The namespace of a path

A path names a controller, and perhaps an action and an id after it. Its first components can be the
namespace of the controller when they are known as one and the others leave room for the rest; there
may be several such beginnings, one for each number of components.

* `Namespaces.Feasible` — a number of components can be the namespace
* `Namespaces.Leads` — a text stands in the decoded path before the name of a controller
* `Namespaces.Leads.feasible`, `Namespaces.Feasible.leads` — these texts are the feasible namespaces
-/

namespace Routing

namespace Path

theorem dot_mem_mark {s : Text} : '.' ∈ mark s ↔ '.' ∈ s := by
  constructor
  · intro h
    rcases mem_mark h with ⟨h, -⟩ | h
    · exact h
    · exact absurd h (by decide)
  · intro h
    exact List.mem_flatMap.2 ⟨'.', h, List.mem_singleton_self _⟩

/-- A text without percent signs is the decoded form of itself alone. -/
theorem eq_of_mark {s t : Text} (h : mark s = t) (ht : '%' ∉ t) : s = t := by
  rw [← restore_of_plain ht, ← h, restore_mark]

/-- Parts that read without a percent sign held no placeholders. -/
theorem eq_of_map_mark {parts q : List Text} (h : parts.map mark = q)
    (hq : ∀ part ∈ q, '%' ∉ part) : parts = q := by
  induction parts generalizing q with
  | nil => exact h
  | cons part parts ih =>
    subst h
    obtain ⟨hpart, hparts⟩ := List.forall_mem_cons.1 hq
    rw [List.map_cons, ← eq_of_mark rfl hpart, ← ih rfl hparts]

/-! ## Components with a slash behind each -/

/-- The text of components with a slash behind each of them. -/
def slashAfter (parts : List Text) : Text := parts.flatMap (· ++ ['/'])

theorem slashAfter_append (p q : List Text) : slashAfter (p ++ q) = slashAfter p ++ slashAfter q :=
  List.flatMap_append

theorem intercalate_cons (part : Text) (rest : List Text) :
    ['/'].intercalate (part :: rest) = part ++ rest.flatMap ('/' :: ·) := by
  have h : ofComponents (part :: rest) = (part :: rest).flatMap ('/' :: ·) :=
    ofComponents_eq_flatMap (List.cons_ne_nil part rest)
  exact (List.cons.inj h).2

theorem intercalate_append_cons (q : List Text) (part : Text) (rest : List Text) :
    ['/'].intercalate (q ++ part :: rest) = slashAfter q ++ ['/'].intercalate (part :: rest) := by
  induction q with
  | nil => rfl
  | cons p q ih =>
    have hcons : slashAfter (p :: q) = p ++ ['/'] ++ slashAfter q := rfl
    rw [hcons, List.append_assoc _ (slashAfter q), ← ih, List.cons_append]
    cases q <;> simp [List.intercalate_cons_cons]

/-- The parts of a text, each with a slash after it, are the text and a slash. -/
theorem slashAfter_splitOn (s : Text) : slashAfter (s.splitOn '/') = s ++ ['/'] := by
  have hadd (q : List Text) (hq : q ≠ []) : slashAfter q = ['/'].intercalate q ++ ['/'] := by
    induction q with
    | nil => exact absurd rfl hq
    | cons part q ih =>
      have hcons : slashAfter (part :: q) = part ++ ['/'] ++ slashAfter q := rfl
      rw [hcons]
      cases q with
      | nil => simp [slashAfter]
      | cons => simp [ih, List.intercalate_cons_cons]
  rw [hadd _ (List.splitOn_ne_nil _ _), List.intercalate_splitOn]

end Path

variable [Properties]

namespace Namespaces

open Routing.Path

/-! ## Feasible namespaces -/

/-- The first `k` components of a path can be the namespace of its controller: they are a known one,
or none, and the name of the controller comes next; behind it stand two components at most, without
dots. -/
structure Feasible (n : Namespaces) (parts : List Text) (k : Nat) : Prop where
  known : k = 0 ∨ ∃ ns ∈ n.names, ns.splitOn '/' = parts.take k
  name : ∃ name, parts[k]? = some name ∧ name ≠ [] ∧ ∀ x ∈ name, isNameChar x = true
  rest : (parts.drop (k + 1)).length ≤ 2
  dotless : ∀ part ∈ parts.drop (k + 1), '.' ∉ part

/-- The components are those of a namespace, or none. -/
def IsNamespace (n : Namespaces) (q : List Text) : Prop :=
  q = [] ∨ ∃ ns ∈ n.names, ns.splitOn '/' = q

variable {n : Namespaces} {c q : List Text} {k : Nat} {start name : Text} {rest : List Text}

theorem Feasible.lt (h : n.Feasible c k) : k < c.length := by
  obtain ⟨name, hname, -⟩ := h.name
  exact (List.getElem?_eq_some_iff.1 hname).1

omit [Properties] in
theorem take_name (q : List Text) (name : Text) (rest : List Text) :
    (q ++ name :: rest).take (q.length + 1) = q ++ [name] := by
  rw [List.append_cons]
  exact List.take_left' List.length_append

omit [Properties] in
theorem drop_name (q : List Text) (name : Text) (rest : List Text) :
    (q ++ name :: rest).drop (q.length + 1) = rest := by
  rw [List.append_cons]
  exact List.drop_left' List.length_append

/-- A split is feasible when a namespace, a name and at most two components without dots follow each
other. -/
theorem feasible_append : n.Feasible (q ++ name :: rest) q.length ↔
    n.IsNamespace q ∧ (name ≠ [] ∧ ∀ x ∈ name, isNameChar x = true) ∧ rest.length ≤ 2 ∧
      ∀ part ∈ rest, '.' ∉ part := by
  have htake : (q ++ name :: rest).take q.length = q := List.take_left
  have hname : (q ++ name :: rest)[q.length]? = some name := by simp
  have hdrop := drop_name q name rest
  have hzero : q.length = 0 ↔ q = [] := List.length_eq_zero_iff
  constructor
  · intro ⟨hknown, ⟨name', hname', hfits⟩, hrest, hdotless⟩
    rw [hzero, htake] at hknown
    rw [hdrop] at hrest hdotless
    cases hname.symm.trans hname'
    exact ⟨hknown, hfits, hrest, hdotless⟩
  · intro ⟨hknown, hfits, hrest, hdotless⟩
    refine ⟨?_, ⟨name, hname, hfits⟩, ?_, ?_⟩
    · rwa [hzero, htake]
    · rwa [hdrop]
    · rwa [hdrop]

/-- The components of a path around the name of its controller. -/
theorem Feasible.exists_eq (h : n.Feasible c k) :
    ∃ q name rest, c = q ++ name :: rest ∧ q.length = k := by
  refine ⟨c.take k, c.get ⟨k, h.lt⟩, c.drop (k + 1), ?_, List.length_take_of_le (Nat.le_of_lt h.lt)⟩
  rw [List.get_eq_getElem, ← List.drop_eq_getElem_cons, List.take_append_drop]

/-- The starts are those of the namespaces, in parts. -/
theorem mem_starts_iff : start ∈ n.starts ↔ ∃ q, n.IsNamespace q ∧ start = slashAfter q := by
  rw [mem_starts]
  constructor
  · rintro (⟨ns, hns, rfl⟩ | rfl)
    · exact ⟨_, .inr ⟨ns, hns, rfl⟩, (slashAfter_splitOn ns).symm⟩
    · exact ⟨[], .inl rfl, rfl⟩
  · rintro ⟨_, rfl | ⟨ns, hns, rfl⟩, rfl⟩
    · exact .inr rfl
    · exact .inl ⟨ns, hns, slashAfter_splitOn ns⟩

/-! ## Texts before the controller name -/

/-- The decoded path begins with the text, the name of a controller follows, and behind it two
components at most. -/
def Leads (c : List Text) (start : Text) : Prop :=
  ∃ (name : Text) (rest : List Text), markedText c = start ++ (name ++ rest.flatMap ('/' :: ·)) ∧
    (name ≠ [] ∧ ∀ x ∈ name, isNameChar x = true) ∧ rest.length ≤ 2 ∧
      ∀ part ∈ rest, Slot.Dotless part

/-- The parts of a namespace without percent signs have neither percent signs nor slashes. -/
theorem plain_of_isNamespace (hn : ∀ ns ∈ n.names, '%' ∉ ns) (hq : n.IsNamespace q) :
    ∀ part ∈ q, '%' ∉ part ∧ '/' ∉ part := by
  rcases hq with rfl | ⟨ns, hns, rfl⟩
  · simp
  · intro part hpart
    refine ⟨fun h => hn ns hns ?_, slash_not_mem_of_mem_splitOn hpart⟩
    have := mem_intercalate_of_mem hpart h
    rwa [List.intercalate_splitOn] at this

omit [Properties] in
/-- The name of a controller has neither percent signs nor slashes. -/
theorem plain_of_name (h : ∀ x ∈ name, isNameChar x = true) : '%' ∉ name ∧ '/' ∉ name :=
  ⟨fun hx => absurd (h _ hx) (by decide), fun hx => absurd (h _ hx) (by decide)⟩

omit [Properties] in
theorem map_mark_of_plain (h : ∀ part ∈ q, '%' ∉ part ∧ '/' ∉ part) : q.map mark = q := by
  have hself : ∀ part ∈ q, mark part = part := by
    intro part hpart
    apply mark_of_plain
    intro x hx
    exact ⟨fun hpercent => (h part hpart).1 (hpercent ▸ hx),
      fun hslash => (h part hpart).2 (hslash ▸ hx)⟩
  rw [List.map_congr_left hself, List.map_id']

/-- A controller in a namespace has no percent sign. -/
theorem Feasible.percent_not_mem (h : n.Feasible c k) (hn : ∀ ns ∈ n.names, '%' ∉ ns) :
    '%' ∉ ['/'].intercalate (c.take (k + 1)) := by
  obtain ⟨q, name, rest, rfl, rfl⟩ := h.exists_eq
  obtain ⟨hq, hname, -⟩ := feasible_append.1 h
  rw [take_name]
  intro hmem
  rcases mem_of_mem_intercalate hmem with heq | ⟨part, hpart, hpercent⟩
  · exact absurd heq (by decide)
  · rcases List.mem_append.1 hpart with hpart | hpart
    · exact (plain_of_isNamespace hn hq part hpart).1 hpercent
    · rw [List.mem_singleton.1 hpart] at hpercent
      exact (plain_of_name hname.2).1 hpercent

/-- A namespace that the decoded path begins with, before the name of a controller, is feasible. -/
theorem Leads.feasible (h : Leads c (slashAfter q)) (hn : ∀ ns ∈ n.names, '%' ∉ ns)
    (hq : n.IsNamespace q) : n.Feasible c q.length ∧ c.take q.length = q := by
  obtain ⟨name, rest, hpath, hname, hlen, hrest⟩ := h
  have hplain := plain_of_isNamespace hn hq
  have hplain' := plain_of_name hname.2
  rw [← intercalate_cons, ← intercalate_append_cons] at hpath
  have hslash : ∀ part ∈ q ++ name :: rest, '/' ∉ part := by
    rw [List.forall_mem_append, List.forall_mem_cons]
    exact ⟨fun part hpart => (hplain part hpart).2, hplain'.2,
      fun part hpart => (hrest part hpart).2.1⟩
  have hne : c ≠ [] := by
    rintro rfl
    obtain ⟨x, hx⟩ := List.exists_mem_of_ne_nil _ hname.1
    have hmem : x ∈ ['/'].intercalate (q ++ name :: rest) :=
      mem_intercalate_of_mem (List.mem_append_right q List.mem_cons_self) hx
    rw [← hpath] at hmem
    cases hmem
  -- both texts have the same components
  have hparts : c.map mark = q ++ name :: rest := by
    rw [← splitOn_markedText hne, hpath, List.splitOn_intercalate '/' hslash (by simp)]
  -- the components are those of the namespace, the name and the rest, decoded
  obtain ⟨q', c', rfl, hq', hc'⟩ := List.map_eq_append_iff.1 hparts
  obtain ⟨name', rest', rfl, hname', rfl⟩ := List.map_eq_cons_iff.1 hc'
  obtain rfl := eq_of_map_mark hq' fun part hpart => (hplain part hpart).1
  obtain rfl := eq_of_mark hname' hplain'.1
  refine ⟨feasible_append.2 ⟨hq, hname, by simpa using hlen, ?_⟩, List.take_left⟩
  intro part hpart hdot
  exact (hrest _ (List.mem_map_of_mem hpart)).2.2 (dot_mem_mark.2 hdot)

/-- Only what stands behind the controller can have placeholders. -/
theorem Feasible.markedText_eq (h : n.Feasible (q ++ name :: rest) q.length)
    (hn : ∀ ns ∈ n.names, '%' ∉ ns) : markedText (q ++ name :: rest) =
      slashAfter q ++ (name ++ (rest.map mark).flatMap ('/' :: ·)) := by
  obtain ⟨hq, hname, -⟩ := feasible_append.1 h
  have hplain : ∀ part ∈ q ++ [name], '%' ∉ part ∧ '/' ∉ part := by
    rw [List.forall_mem_append, List.forall_mem_singleton]
    exact ⟨plain_of_isNamespace hn hq, plain_of_name hname.2⟩
  have hmarked : (q ++ name :: rest).map mark = q ++ name :: rest.map mark := by
    rw [List.append_cons, List.map_append, map_mark_of_plain hplain, ← List.append_cons]
  rw [markedText, hmarked, intercalate_append_cons, intercalate_cons]

/-- The components after the name have no dots when they are decoded. -/
theorem Feasible.dotless_map (h : n.Feasible (q ++ name :: rest) q.length)
    (hne : ∀ part ∈ rest, part ≠ []) : ∀ part ∈ rest.map mark, Slot.Dotless part := by
  obtain ⟨-, -, -, hdotless⟩ := feasible_append.1 h
  rw [List.forall_mem_map]
  intro part hpart
  exact ⟨mark_ne_nil (hne part hpart), slash_not_mem_mark part,
    fun h => hdotless part hpart (dot_mem_mark.1 h)⟩

/-- The decoded path begins with a feasible namespace. -/
theorem Feasible.leads (h : n.Feasible (q ++ name :: rest) q.length)
    (hn : ∀ ns ∈ n.names, '%' ∉ ns) (hne : ∀ part ∈ rest, part ≠ []) :
    Leads (q ++ name :: rest) (slashAfter q) := by
  obtain ⟨-, hname, hlen, -⟩ := feasible_append.1 h
  exact ⟨name, rest.map mark, h.markedText_eq hn, hname, by rwa [List.length_map],
    h.dotless_map hne⟩

end Namespaces

end Routing
