import Routing.Proofs.Requirement
import Routing.Proofs.Template.Assembly

/-!
# Templates with requirements

Each capture of a template is a group that holds a requirement or a grammar. Whatever these match,
as long as their texts can be read wherever they stand, the expression of the template matches its
slots in order, and a group is bound to the text that stands in its slot.

* `Slot.lang`, `Slot.nestedLang` — what slots match when each capture matches a language
* `Slot.exists_of_bound` — where the text of a group stands
* `Slot.denotes_source`, `Slot.denotes_nested` — what the text of slots and of levels denotes
* `Matcher.denotes_ofSegments` — what the expression of a template denotes
-/

namespace Routing

open Regex

/-! ## What slots match -/

namespace Slot

section Lang

variable (L : Text → Bool → Lang) (N : Text → Bool → List Text)

/-- What slots match when each capture matches a language; `n` is the number of the first group. -/
def lang (n : Nat) : List Slot → Lang
  | [] => .nil
  | text t :: rest => (Expr.Chain (t.map fun c => .set (.single c))).seq (lang n rest)
  | capture name glob :: rest =>
    Lang.seq (fun l t r g => ∃ g', L name glob l t r g' ∧ g = (Matcher.groupName n, t) :: g')
      (lang (n + 1) rest)

/-- What levels match that may be missing, each inside the one before it. -/
def nestedLang (n : Nat) : List (List Slot) → Lang
  | [] => .nil
  | level :: rest =>
    Lang.nil.or ((lang L n level).seq (nestedLang (n + (captures level).length) rest))

/-- The names of the groups of slots, with those inside the captures. -/
def groups (n : Nat) : List Slot → List Text
  | [] => []
  | text _ :: rest => groups n rest
  | capture name glob :: rest => Matcher.groupName n :: N name glob ++ groups (n + 1) rest

end Lang

variable {L : Text → Bool → Lang} {N : Text → Bool → List Text} {n i : Nat} {a b : List Slot}
  {slots : List Slot}

/-- Slots put together match the sequence of what their parts match. -/
theorem lang_append (n : Nat) (a b : List Slot) :
    lang L n (a ++ b) = (lang L n a).seq (lang L (n + (captures a).length) b) := by
  induction a generalizing n with
  | nil => exact (Lang.nil_seq _).symm
  | cons s a ih =>
    cases s with
    | text t => rw [List.cons_append, lang, ih, lang, captures, Lang.seq_assoc]
    | capture name glob =>
      rw [List.cons_append, lang, ih, lang, captures, List.length_cons, Lang.seq_assoc,
        Nat.add_assoc, Nat.add_comm 1]

/-- Slots put together have the groups of their parts, numbered on. -/
theorem groups_append (n : Nat) (a b : List Slot) :
    groups N n (a ++ b) = groups N n a ++ groups N (n + (captures a).length) b := by
  induction a generalizing n with
  | nil => rfl
  | cons s a ih =>
    cases s with
    | text t => rw [List.cons_append, groups, ih, groups, captures]
    | capture name glob =>
      rw [List.cons_append, groups, ih, groups, captures, List.length_cons, Nat.add_assoc,
        Nat.add_comm 1]
      simp

/-- The group of each capture is among them. -/
theorem groupName_mem_groups (hn : n ≤ i) (hi : i < n + (captures slots).length) :
    Matcher.groupName i ∈ groups N n slots := by
  induction slots generalizing n with
  | nil => simp [captures] at hi; omega
  | cons s slots ih =>
    cases s with
    | text t => exact ih hn hi
    | capture name glob =>
      by_cases heq : n = i
      · rw [heq]
        exact List.mem_cons_self
      · rw [captures, List.length_cons] at hi
        exact List.mem_cons_of_mem _ (List.mem_append_right _ (ih (by omega) (by omega)))

/-- Nested levels match some of the levels, from the outermost in. -/
theorem nestedLang_iff {levels : List (List Slot)} {l t r : Text} {g : Groups} :
    nestedLang L n levels l t r g ↔
      ∃ m ≤ levels.length, lang L n (levels.take m).flatten l t r g := by
  induction levels generalizing n l t g with
  | nil =>
    constructor
    · exact fun h => ⟨0, Nat.le_refl 0, h⟩
    · intro h
      obtain ⟨m, -, h⟩ := h
      simpa [nestedLang, lang] using h
  | cons level levels ih =>
    rw [nestedLang]
    constructor
    · intro h
      rcases h with h | ⟨t₁, t₂, g₁, g₂, ht, hg, h₁, h₂⟩
      · exact ⟨0, Nat.zero_le _, h⟩
      · obtain ⟨m, hm, h₂⟩ := ih.1 h₂
        refine ⟨m + 1, Nat.succ_le_succ hm, ?_⟩
        rw [List.take_succ_cons, List.flatten_cons, lang_append]
        exact ⟨t₁, t₂, g₁, g₂, ht, hg, h₁, h₂⟩
    · intro h
      obtain ⟨m, hm, h⟩ := h
      cases m with
      | zero => exact .inl h
      | succ m =>
        rw [List.take_succ_cons, List.flatten_cons, lang_append] at h
        obtain ⟨t₁, t₂, g₁, g₂, ht, hg, h₁, h₂⟩ := h
        exact .inr ⟨t₁, t₂, g₁, g₂, ht, hg, h₁, ih.2 ⟨m, Nat.le_of_succ_le_succ hm, h₂⟩⟩

/-! ### Groups -/

/-- The captures match languages that bind names of their own. -/
def Bind (L : Text → Bool → Lang) (N : Text → Bool → List Text) (slots : List Slot) : Prop :=
  ∀ name glob, capture name glob ∈ slots → (L name glob).Binds (N name glob)

/-- Slots bind their own groups, and those inside the captures. -/
theorem binds_lang (h : Bind L N slots) (n : Nat) :
    (lang L n slots).Binds (groups N n slots) := by
  induction slots generalizing n with
  | nil => exact Lang.binds_nil
  | cons s slots ih =>
    have hrest := ih (fun name glob hmem => h name glob (List.mem_cons_of_mem _ hmem))
    cases s with
    | text t =>
      intro l w r g hM p hp
      obtain ⟨t₁, t₂, g₁, g₂, -, rfl, h₁, h₂⟩ := hM
      obtain ⟨-, rfl⟩ := (chain_literal t).1 h₁
      rw [List.append_nil] at hp
      exact hrest n _ _ _ _ h₂ p hp
    | capture name glob =>
      intro l w r g hM p hp
      obtain ⟨t₁, t₂, _, g₂, -, rfl, ⟨g', hg', rfl⟩, h₂⟩ := hM
      rw [groups]
      -- bound by a later slot, or by this one
      rcases List.mem_append.1 hp with hp | hp
      · exact List.mem_append_right _ (hrest (n + 1) _ _ _ _ h₂ p hp)
      · apply List.mem_append_left
        rcases List.mem_cons.1 hp with rfl | hp
        · exact List.mem_cons_self
        · exact List.mem_cons_of_mem _ (h name glob List.mem_cons_self _ _ _ _ hg' p hp)

/-- The group of each capture is bound. -/
theorem isSome_lookup_of_lang {l t r : Text} {g : Groups} (hM : lang L n slots l t r g)
    (hn : n ≤ i) (hi : i < n + (captures slots).length) :
    (Dict.lookup (Matcher.groupName i) g).isSome = true := by
  induction slots generalizing n l t g with
  | nil => simp [captures] at hi; omega
  | cons s slots ih =>
    cases s with
    | text w =>
      obtain ⟨t₁, t₂, g₁, g₂, rfl, rfl, h₁, h₂⟩ := hM
      obtain ⟨rfl, rfl⟩ := (chain_literal w).1 h₁
      rw [List.append_nil]
      exact ih h₂ hn hi
    | capture name glob =>
      obtain ⟨t₁, t₂, _, g₂, rfl, rfl, ⟨g', -, rfl⟩, h₂⟩ := hM
      -- later groups come first in what is bound
      rw [Dict.lookup_append, Option.isSome_or, Bool.or_eq_true]
      by_cases heq : n = i
      · subst heq
        right
        simp [Dict.lookup]
      · rw [captures, List.length_cons] at hi
        exact .inl (ih h₂ (by omega) (by omega))

/-- A group is bound to the text that the language of its capture matches there. -/
theorem exists_of_bound {l t r u : Text} {g : Groups} (hM : lang L n slots l t r g)
    (hbind : Bind L N slots) (hnodup : (groups N n slots).Nodup) (hn : n ≤ i)
    (hi : i < n + (captures slots).length)
    (hu : Dict.lookup (Matcher.groupName i) g = some u) :
    ∃ a name glob b ta tb, slots = a ++ capture name glob :: b ∧
      n + (captures a).length = i ∧ t = ta ++ u ++ tb ∧
        (∃ ga, lang L n a l ta (u ++ tb ++ r) ga) ∧
        (∃ gu, L name glob (l ++ ta) u (tb ++ r) gu) ∧
        ∃ gb, lang L (i + 1) b (l ++ ta ++ u) tb r gb := by
  -- the slots in front of the capture are moved to what stands before it
  induction slots generalizing n l t g with
  | nil => simp [captures] at hi; omega
  | cons s slots ih =>
    have hbind' : Bind L N slots := fun name glob hmem =>
      hbind name glob (List.mem_cons_of_mem _ hmem)
    cases s with
    | text w =>
      obtain ⟨t₁, t₂, g₁, g₂, rfl, rfl, h₁, h₂⟩ := hM
      obtain ⟨rfl, rfl⟩ := (chain_literal w).1 h₁
      rw [List.append_nil] at hu
      obtain ⟨a, name, glob, b, ta, tb, rfl, hcount, rfl, ⟨ga, ha⟩, ⟨gu, hgu⟩, gb, hb⟩ :=
        ih h₂ hbind' hnodup hn hi hu
      refine ⟨.text t₁ :: a, name, glob, b, t₁ ++ ta, tb, rfl, hcount, by simp,
        ⟨ga ++ [], t₁, ta, [], ga, rfl, rfl, ?_, ha⟩, ⟨gu, by simpa using hgu⟩, gb,
        by simpa using hb⟩
      exact (chain_literal t₁).2 ⟨rfl, rfl⟩
    | capture name glob =>
      obtain ⟨t₁, t₂, _, g₂, rfl, rfl, ⟨g', hg', rfl⟩, h₂⟩ := hM
      obtain ⟨hown, hrest, hdisjoint⟩ := List.nodup_append.1 hnodup
      rw [captures, List.length_cons] at hi
      rw [Dict.lookup_append, Dict.lookup] at hu
      by_cases heq : Matcher.groupName n = Matcher.groupName i
      · -- no later group has the name of this one
        obtain rfl := Matcher.groupName_inj heq
        have hlater : Dict.lookup (Matcher.groupName n) g₂ = none := by
          apply Dict.lookup_eq_none
          intro p hp hname
          exact hdisjoint _ List.mem_cons_self _ (binds_lang hbind' (n + 1) _ _ _ _ h₂ p hp)
            hname.symm
        rw [hlater, if_pos rfl, Option.none_or] at hu
        cases hu
        exact ⟨[], name, glob, slots, [], t₂, rfl, rfl, rfl, ⟨[], rfl, rfl⟩, ⟨g', by simpa using hg'⟩,
          g₂, by simpa using h₂⟩
      · -- the group is a later one, whose name no group in this one has
        have hlt : n + 1 ≤ i := by
          have : n ≠ i := fun h => heq (h ▸ rfl)
          omega
        have hinner : Dict.lookup (Matcher.groupName i) g' = none := by
          apply Dict.lookup_eq_none
          intro p hp hname
          have hmem := hbind name glob List.mem_cons_self _ _ _ _ hg' p hp
          exact hdisjoint _ (List.mem_cons_of_mem _ hmem) _ (groupName_mem_groups hlt (by omega))
            hname
        rw [if_neg heq, hinner, Option.or_none] at hu
        obtain ⟨a, name', glob', b, ta, tb, rfl, hcount, rfl, ⟨ga, ha⟩, ⟨gu, hgu⟩, gb, hb⟩ :=
          ih h₂ hbind' hrest hlt (by omega) hu
        refine ⟨.capture name glob :: a, name', glob', b, t₁ ++ ta, tb, rfl, ?_, by simp,
          ⟨ga ++ (Matcher.groupName n, t₁) :: g', t₁, ta, _, ga, rfl, rfl, ⟨g', ?_, rfl⟩, ha⟩,
          ⟨gu, by simpa using hgu⟩, gb, by simpa using hb⟩
        · rw [captures, List.length_cons]
          omega
        · simpa using hg'

/-! ### What the text of slots denotes -/

variable [Properties] {requirements : Dict Requirement}

/-- What the groups of captures hold denotes the languages that they match. -/
def Guards (requirements : Dict Requirement) (L : Text → Bool → Lang)
    (N : Text → Bool → List Text) (slots : List Slot) : Prop :=
  ∀ name glob, capture name glob ∈ slots →
    Denotes (grammarOf requirements
      (if glob then Matcher.globGrammar else Matcher.componentGrammar) name)
      (L name glob) (N name glob)

/-- The text of slots denotes what the slots match. -/
theorem denotes_source (h : Guards requirements L N slots) (n : Nat) :
    Denotes (source requirements n slots) (lang L n slots) (groups N n slots) := by
  induction slots generalizing n with
  | nil => exact .of_spells .nil
  | cons s slots ih =>
    have hrest : Guards requirements L N slots := fun name glob hmem =>
      h name glob (List.mem_cons_of_mem _ hmem)
    cases s with
    | text t =>
      exact (Denotes.of_spells (.quoted t)).append (ih hrest n) (head?_source n slots)
    | capture name glob =>
      have hgroup := (h name glob List.mem_cons_self).named
        (Matcher.isGroupName_groupName n) (Matcher.gt_not_mem_groupName n)
      simp only [List.append_assoc] at hgroup
      exact hgroup.append (ih hrest (n + 1)) (head?_source (n + 1) slots)

/-- The text of levels denotes what the levels match. -/
theorem denotes_nested {levels : List (List Slot)} (h : Guards requirements L N levels.flatten)
    (n : Nat) :
    Denotes (nestedSource requirements n levels) (nestedLang L n levels)
      (groups N n levels.flatten) := by
  induction levels generalizing n with
  | nil => exact .of_spells .nil
  | cons level levels ih =>
    have hlevel : Guards requirements L N level := fun name glob hmem =>
      h name glob (List.mem_append_left _ hmem)
    have hrest : Guards requirements L N levels.flatten := fun name glob hmem =>
      h name glob (List.mem_append_right _ hmem)
    rw [List.flatten_cons, groups_append]
    exact ((denotes_source hlevel n).append (ih hrest _) (head?_nestedSource _ _)).optional

end Slot

/-- What the whole text of a template's expression denotes. -/
theorem Matcher.denotes_ofSegments [Properties] {requirements : Dict Requirement}
    {L : Text → Bool → Lang} {N : Text → Bool → List Text}
    {segments required optional : List Segment} {format? : Option Text}
    (hsplit : splitFormat segments = (required ++ optional, format?))
    (hreq : ∀ s ∈ required, s.isOptional = false)
    (hopt : ∀ s ∈ optional, ∃ name, s = .capture name true)
    (hformat : format? ≠ none → required ++ optional ≠ [])
    (hfixed : Slot.Guards requirements L N (fixedSlots required))
    (hlevels : Slot.Guards requirements L N (levelSlots required optional format?).flatten) :
    Denotes (ofSegments requirements segments).source
      (((Expr.look .start).Matches.seq
        ((Slot.lang L 0 (fixedSlots required)).seq
          (Slot.nestedLang L (Slot.captures (fixedSlots required)).length
            (levelSlots required optional format?)))).seq (Expr.look .stop).Matches)
      (Slot.groups N 0 (fixedSlots required ++ (levelSlots required optional format?).flatten)) := by
  have hstart : Denotes ['^'] (Expr.look .start).Matches [] := by
    have := Denotes.of_spells Spells.lineStart
    rwa [Expr.chain_cons, Expr.chain_nil, Lang.seq_nil] at this
  have hstop : Denotes ['$'] (Expr.look .stop).Matches [] := by
    have := Denotes.of_spells Spells.lineEnd
    rwa [Expr.chain_cons, Expr.chain_nil, Lang.seq_nil] at this
  have hslots := (Slot.denotes_source hfixed 0).append
    (Slot.denotes_nested hlevels (Slot.captures (fixedSlots required)).length)
    (Slot.head?_nestedSource _ _)
  have hwhole := (hstart.append hslots
    (Slot.head?_source_append 0 _ (Slot.head?_nestedSource _ _))).append hstop (by decide)
  rw [ofSegments_source hsplit hreq hopt hformat, Slot.groups_append, Nat.zero_add]
  simpa using hwhole

end Routing
