import Routing.Namespaces
import Routing.Proofs.Requirement
import Routing.Proofs.Template.Assembly

/-!
# The controllers of namespaces

The requirement on controllers lists the known namespaces. Whatever stands in their names is taken
literally, so that it accepts bare controller names and those that follow one of the namespaces and
a slash.

* `Namespaces.Holds` — a text is such a controller
* `Namespaces.accepts_iff_holds` — the requirement accepts these
* `Namespaces.embeds` — wherever its fragment stands, it matches the same
* `Namespaces.accepts_iff` — without namespaces, bare names
-/

namespace Routing.Namespaces

open Regex

variable [Properties]

/-- A controller name alone, or one after a namespace and a slash. -/
def Holds (n : Namespaces) (t : Text) : Prop :=
  ∃ name, Slot.Fits controllerKey false name ∧
    (t = name ∨ ∃ ns ∈ n.names, t = ns ++ '/' :: name)

/-- A controller name after a text. -/
def after (start : Text) : Lang := fun _ t _ g =>
  g = [] ∧ ∃ name, Slot.Fits controllerKey false name ∧ t = start ++ name

/-- The name of a controller, with nothing before it. -/
theorem denotes_controllerName : Denotes controllerName (after []) [] := by
  have h := Denotes.of_spells Slot.spells_controllerName
  have hM : Expr.Chain [.times 1 none true (.set (.unions
      [.single '_', .range 'a' 'z', .range 'A' 'Z', .range '0' '9']))] = after [] := by
    funext l t r g
    apply propext
    rw [Expr.chain_cons, Expr.chain_nil, Lang.seq_nil]
    have hchars : Slot.chars controllerKey false =
        .unions [.single '_', .range 'a' 'z', .range 'A' 'Z', .range '0' '9'] := if_pos rfl
    rw [← hchars]
    constructor
    · intro h
      obtain ⟨hne, hall, hg⟩ := (Expr.matches_run _).1 h
      exact ⟨hg, t, ⟨hne, fun c hc => Slot.mem_chars .. ▸ hall c hc⟩, rfl⟩
    · intro ⟨hg, name, ⟨hne, hall⟩, ht⟩
      rw [List.nil_append] at ht
      subst ht
      exact (Expr.matches_run _).2 ⟨hne, fun c hc => (Slot.mem_chars ..).trans (hall c hc), hg⟩
  rwa [hM] at h

/-- A namespace, a slash and the name of a controller. -/
theorem denotes_alternative (ns : Text) :
    Denotes (alternative ns) (after (ns ++ ['/'])) [] := by
  have hslash : Denotes ['/'] (Expr.Chain [.set (.single '/')]) [] := .of_spells (.char rfl)
  have h := ((Denotes.of_spells (.quoted ns)).append hslash (by decide)).append
    denotes_controllerName (by decide)
  -- one run of fixed characters, and then the name
  have hM : ((Expr.Chain (ns.map fun c => .set (.single c))).seq
      (Expr.Chain [.set (.single '/')])).seq (after []) = after (ns ++ ['/']) := by
    rw [← Expr.chain_append]
    have hmap : (ns.map fun c => Expr.set (.single c)) ++ [.set (.single '/')] =
        (ns ++ ['/']).map fun c => .set (.single c) := by simp
    rw [hmap]
    funext l t r g
    apply propext
    constructor
    · intro ⟨t₁, t₂, g₁, g₂, ht, hg, h₁, h₂⟩
      obtain ⟨rfl, rfl⟩ := (Slot.chain_literal _).1 h₁
      obtain ⟨rfl, name, hname, rfl⟩ := h₂
      exact ⟨hg, t₂, hname, ht⟩
    · intro ⟨hg, name, hname, ht⟩
      exact ⟨ns ++ ['/'], name, [], [], ht, hg, (Slot.chain_literal _).2 ⟨rfl, rfl⟩, rfl, name, hname, rfl⟩
  rwa [hM] at h

/-- The alternatives of the requirement, each with what it denotes. -/
def branches (n : Namespaces) : List (Text × Lang) :=
  (n.names.map fun ns => (alternative ns, after (ns ++ ['/']))) ++ [(controllerName, after [])]

/-- Each alternative denotes its language. -/
theorem denotes_branches {n : Namespaces} {b : Text × Lang} (h : b ∈ n.branches) :
    Denotes b.1 b.2 [] := by
  rcases List.mem_append.1 h with h | h
  · obtain ⟨ns, -, rfl⟩ := List.mem_map.1 h
    exact denotes_alternative ns
  · rw [List.mem_singleton.1 h]
    exact denotes_controllerName

/-- The order of the alternatives does not matter. -/
theorem denotes_source (n : Namespaces) :
    ∃ bs : List (Text × Lang), (∀ b, b ∈ bs ↔ b ∈ n.branches) ∧
      Denotes (Requirement.fragmentOf n.source false false) (.any (bs.map Prod.snd)) [] := by
  let bs := n.branches.mergeSort fun a b => standsBefore a.1 b.1
  have hmem (b : Text × Lang) : b ∈ bs ↔ b ∈ n.branches := List.mem_mergeSort
  -- sorting the texts and sorting them with their languages come to the same order
  have htexts : bs.map Prod.fst =
      (n.names.map alternative ++ [controllerName]).mergeSort standsBefore := by
    have hfst : n.branches.map Prod.fst = n.names.map alternative ++ [controllerName] := by
      simp [branches]
    rw [← hfst]
    exact List.map_mergeSort fun _ _ _ _ => rfl
  have hne : bs ≠ [] := by
    have : (controllerName, after []) ∈ bs := (hmem _).2 (by simp [branches])
    exact List.ne_nil_of_mem this
  refine ⟨bs, hmem, ?_⟩
  have hfragment : Requirement.fragmentOf n.source false false =
      "(?:".toList ++ n.source ++ [')'] := by simp [Requirement.fragmentOf]
  rw [hfragment, source, ← htexts]
  exact Denotes.oneOf hne fun b hb => denotes_branches ((hmem b).1 hb)

/-- The fragment of a requirement that was compiled from the source. -/
theorem fragment_of_compile {n : Namespaces} {c : Requirement}
    (h : Requirement.compile (.plain n.source) = .ok c) :
    c.fragment = Requirement.fragmentOf n.source false false := by
  obtain ⟨hsource, hcase, hext⟩ := Requirement.fields_of_compile h
  rw [Requirement.fragment, hsource, hcase, hext]
  rfl

/-- The requirement on controllers accepts the controllers of its namespaces. -/
theorem accepts_iff_holds {n : Namespaces} {c : Requirement}
    (h : Requirement.compile (.plain n.source) = .ok c) (t : Text) :
    c.accepts t = true ↔ n.Holds t := by
  obtain ⟨bs, hmem, hdenotes⟩ := n.denotes_source
  rw [Requirement.accepts_iff_of_denotes (fragment_of_compile h ▸ hdenotes)]
  constructor
  · intro hmatches
    obtain ⟨g, M, hM, ht⟩ := hmatches
    obtain ⟨b, hb, rfl⟩ := List.mem_map.1 hM
    rcases List.mem_append.1 ((hmem b).1 hb) with hb | hb
    · obtain ⟨ns, hns, rfl⟩ := List.mem_map.1 hb
      obtain ⟨-, name, hname, rfl⟩ := ht
      exact ⟨name, hname, .inr ⟨ns, hns, by simp⟩⟩
    · rw [List.mem_singleton.1 hb] at ht
      obtain ⟨-, name, hname, rfl⟩ := ht
      exact ⟨t, hname, .inl rfl⟩
  -- the other way, the alternative of the name is one of those sorted
  · intro hholds
    obtain ⟨name, hname, ht⟩ := hholds
    rcases ht with rfl | ⟨ns, hns, rfl⟩
    · have hb : (controllerName, after []) ∈ bs := (hmem _).2 (by simp [branches])
      exact ⟨[], _, List.mem_map_of_mem hb, rfl, t, hname, rfl⟩
    · have hb : (alternative ns, after (ns ++ ['/'])) ∈ bs := by
        apply (hmem _).2
        exact List.mem_append_left _ (List.mem_map_of_mem hns)
      exact ⟨[], _, List.mem_map_of_mem hb, rfl, name, hname, by simp⟩

/-- What stands around a controller does not matter. -/
theorem embeds {n : Namespaces} {c : Requirement}
    (h : Requirement.compile (.plain n.source) = .ok c) : ∃ M names, c.Embeds M names := by
  obtain ⟨bs, hmem, hdenotes⟩ := n.denotes_source
  have hafter {M : Lang} (hM : M ∈ bs.map Prod.snd) : ∃ start, M = after start := by
    obtain ⟨b, hb, rfl⟩ := List.mem_map.1 hM
    rcases List.mem_append.1 ((hmem b).1 hb) with hb | hb
    · obtain ⟨ns, -, rfl⟩ := List.mem_map.1 hb
      exact ⟨_, rfl⟩
    · rw [List.mem_singleton.1 hb]
      exact ⟨_, rfl⟩
  refine ⟨_, [], fragment_of_compile h ▸ hdenotes, Lang.Binds.any ?_, ?_⟩
  · intro M hM l t r g hg p hp
    obtain ⟨start, rfl⟩ := hafter hM
    obtain ⟨rfl, -⟩ := hg
    cases hp
  -- what stands around the controller does not matter to any alternative
  · intro a b _ l t r g hg
    obtain ⟨M, hM, hg⟩ := hg
    obtain ⟨start, rfl⟩ := hafter hM
    exact ⟨_, hM, hg⟩

/-! ## Without namespaces -/

theorem source_empty : empty.source = controllerName := by
  have hnames : empty.names = [] := rfl
  rw [source, hnames, List.map_nil, List.nil_append, List.mergeSort_singleton]
  rfl

/-- The requirement without namespaces is compiled from their source. -/
theorem requirement_empty {c : Requirement} {n : Namespaces}
    (h : empty.requirement = .ok (c, n)) :
    Requirement.compile (.plain empty.source) = .ok c := by
  rw [requirement] at h
  obtain ⟨c', hc, h⟩ := bind_eq_ok.1 h
  cases h
  exact hc

/-- The requirement on controllers accepts bare names. -/
theorem accepts_iff {c : Requirement} {n : Namespaces} (h : empty.requirement = .ok (c, n))
    (glob : Bool) (t : Text) : c.accepts t = true ↔ Slot.Fits controllerKey glob t := by
  have hfits (name : Text) : Slot.Fits controllerKey false name ↔ Slot.Fits controllerKey glob name :=
    Iff.rfl
  rw [accepts_iff_holds (requirement_empty h)]
  constructor
  · intro ⟨name, hname, ht⟩
    rcases ht with rfl | ⟨ns, hns, -⟩
    · exact (hfits t).1 hname
    · cases hns
  · intro ht
    exact ⟨t, (hfits t).2 ht, .inl rfl⟩

/-- The fragment of the requirement without namespaces. -/
theorem fragment_eq {c : Requirement} {n : Namespaces} (h : empty.requirement = .ok (c, n)) :
    c.fragment = Requirement.fragmentOf controllerName false false := by
  rw [fragment_of_compile (requirement_empty h), source_empty]

end Routing.Namespaces
