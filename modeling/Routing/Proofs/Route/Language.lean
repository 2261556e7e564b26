import Mathlib.Data.List.Nodup
import Routing.Proofs.Route.Bare

/-!
# The paths that a route describes

A route without requirements describes the paths that spell its required components and some of its
optional levels, from the outermost in, with a fitting text for every parameter. Its expression
matches exactly these, and the parameters of a path are the defaults overlaid with those texts.

* `Level.spell`, `Level.path` — a level and a path with texts for the parameters
* `Route.Describes` — a path spells the first levels of a route
* `Route.segment_unique`, `Route.isGlob_of_mem_slots` — the segment of a parameter
* `Route.isSome_match_iff`, `Route.describes_of_match` — what a route matches
* `Route.get?_of_match` — the parameters of a path
-/

namespace Routing

open Regex

/-! ## Texts for parameters -/

namespace Slot

variable {σ : Text → Text} {slots : List Slot} {texts : List Text}

/-- The slot, with a text for every parameter. -/
def spell (σ : Text → Text) : Slot → Text
  | text t => t
  | capture name _ => σ name

/-- Slots filled with the texts of an assignment are spelled by it. -/
theorem fill_map (σ : Text → Text) (slots : List Slot) :
    fill slots ((names slots).map σ) = slots.flatMap (spell σ) := by
  induction slots with
  | nil => rfl
  | cons s slots ih =>
    cases s with
    | text t => exact congrArg (t ++ ·) ih
    | capture name glob => exact congrArg (σ name ++ ·) ih

/-- The captures of some slots, with whether each is a glob. -/
theorem mem_captures {name : Text} {glob : Bool} :
    (name, glob) ∈ captures slots ↔ capture name glob ∈ slots := by
  induction slots with
  | nil => simp [captures]
  | cons s slots ih => cases s <;> simp [captures, ih]

theorem mem_names {name : Text} : name ∈ names slots ↔ ∃ glob, capture name glob ∈ slots := by
  rw [names, List.mem_map]
  constructor
  · rintro ⟨⟨name, glob⟩, hc, rfl⟩
    exact ⟨glob, mem_captures.1 hc⟩
  · rintro ⟨glob, hc⟩
    exact ⟨(name, glob), mem_captures.2 hc, rfl⟩

/-- The texts of an assignment fit the slots when each fits its own capture. -/
theorem fitAll_map :
    FitAll slots ((names slots).map σ) ↔
      ∀ name glob, capture name glob ∈ slots → Fits name glob (σ name) := by
  rw [FitAll, names, List.map_map, List.forall₂_map_right_iff, List.forall₂_same]
  exact ⟨fun h name glob hm => h (name, glob) (mem_captures.2 hm),
    fun h c hc => h c.1 c.2 (mem_captures.1 hc)⟩

/-- Texts for distinct names come from an assignment. -/
theorem exists_assignment {names : List Text} (hlen : texts.length = names.length)
    (hnodup : names.Nodup) : ∃ σ : Text → Text, texts = names.map σ := by
  induction names generalizing texts with
  | nil => exact ⟨fun _ => [], List.eq_nil_of_length_eq_zero hlen⟩
  | cons name names ih =>
    obtain ⟨t, texts, rfl⟩ := List.exists_cons_of_length_eq_add_one hlen
    obtain ⟨hnew, hnodup⟩ := List.nodup_cons.1 hnodup
    obtain ⟨σ, rfl⟩ := ih (Nat.succ.inj hlen) hnodup
    -- the names are different, so that the tail does not read what the head is given
    refine ⟨fun k => if k = name then t else σ k, ?_⟩
    rw [List.map_cons, if_pos rfl]
    congr 1
    apply List.map_congr_left
    intro k hk
    rw [if_neg]
    rintro rfl
    exact hnew hk

end Slot

namespace Level

/-- The level, with a text for every parameter. -/
def spell (σ : Text → Text) (l : Level) : Text := l.slots.flatMap (Slot.spell σ)

/-- The texts fit the parameters of the level. -/
def Fits (σ : Text → Text) (l : Level) : Prop :=
  ∀ name glob, Slot.capture name glob ∈ l.slots → Slot.Fits name glob (σ name)

/-- The path of some levels; the root when there are none. -/
def path (σ : Text → Text) (levels : List Level) : Text :=
  if levels.isEmpty then ['/'] else levels.flatMap (spell σ)

theorem mem_names {l : Level} {name : Text} :
    name ∈ l.names ↔ ∃ glob, Slot.capture name glob ∈ l.slots := by
  rw [← names_slots, Slot.mem_names]

theorem mem_flatMap_names {levels : List Level} {name : Text} :
    name ∈ levels.flatMap names ↔ ∃ l ∈ levels, ∃ glob, Slot.capture name glob ∈ l.slots := by
  rw [List.mem_flatMap]
  exact exists_congr fun l => and_congr_right fun _ => mem_names

end Level

variable [Properties]

namespace Route

variable {r : Route}

/-- The required components and the first `m` levels that may be missing. -/
def shown (r : Route) (m : Nat) : List Level :=
  r.required.map Level.component ++ r.levels.take m

/-- The levels shown, components first. -/
theorem shown_eq (r : Route) (m : Nat) : r.shown m =
    (r.required ++ r.optional.take m).map Level.component ++
      (r.format?.toList.take (m - r.optional.length)).map Level.format := by
  rw [shown, levels, Matcher.levels, List.take_append, List.length_map, ← List.map_take,
    ← List.map_take, List.map_append, List.append_assoc]

/-- The segment of a level. -/
def segmentOf : Level → Segment
  | .component s => s
  | .format name => .format name

/-- The segment of a level that is shown is a segment of the route. -/
theorem segmentOf_mem (h : r.Compiled) {m : Nat} {l : Level} (hl : l ∈ r.shown m) :
    segmentOf l ∈ r.segments := by
  rw [h.segments, Template.Parts.segments, List.mem_append, List.mem_append]
  rw [shown_eq, List.mem_append, List.mem_map, List.mem_map] at hl
  rcases hl with ⟨s, hs, rfl⟩ | ⟨name, hname, rfl⟩
  · rcases List.mem_append.1 hs with hs | hs
    · exact .inl (.inl hs)
    · exact .inl (.inr (List.mem_of_mem_take hs))
  · exact .inr (List.mem_map.2 ⟨name, List.mem_of_mem_take hname, rfl⟩)

/-- The path spells the first levels of the route. -/
structure Describes (r : Route) (m : Nat) (σ : Text → Text) (path : Text) : Prop where
  le : m ≤ r.levels.length
  fits : ∀ l ∈ r.shown m, l.Fits σ
  path : path = Level.path σ (r.shown m)

/-! ## The slots of the expression -/

/-- The slots of the first levels, as the expression holds them. -/
def slotsAt (r : Route) (m : Nat) : List Slot :=
  Matcher.fixedSlots r.required ++
    ((Matcher.levelSlots r.required r.optional r.format?).take m).flatten

/-- The expression's slots are those of the levels, but that the first slash of a path without
required components stands alone. -/
theorem slotsAt_eq (h : r.Compiled) (m : Nat) :
    r.shown m ≠ [] ∧ r.slotsAt m = (r.shown m).flatMap Level.slots ∨
      r.shown m = [] ∧ r.slotsAt m = [.text ['/']] ∨
      ∃ slots, (r.shown m).flatMap Level.slots = .text ['/'] :: slots ∧
        r.slotsAt m = .text ['/'] :: .text [] :: slots := by
  have hrequired : Matcher.requiredSlots r.required =
      (r.required.map Level.component).flatMap Level.slots := by
    rw [List.flatMap_map]
    rfl
  have hlevels : (((r.levels.map Level.slots).take m).flatten) =
      (r.levels.take m).flatMap Level.slots := by
    rw [← List.map_take]
    rfl
  rw [slotsAt, Matcher.fixedSlots, Matcher.levelSlots, ← levels, shown]
  -- without required components the first slash is there before any level, which has none then
  cases hreq : r.required with
  | cons s required =>
    refine .inl ⟨by simp, ?_⟩
    rw [List.flatMap_append, ← hlevels, ← hreq, ← hrequired, hreq]
    rfl
  | nil =>
    right
    cases hopt : r.optional with
    | nil =>
      have hnone : r.format? = none := by
        by_contra hne
        exact h.format hne (by rw [hreq, hopt]; rfl)
      left
      simp [levels, Matcher.levels, hopt, hnone, Matcher.afterSlash]
    | cons s optional =>
      have hlev : r.levels = .component s :: Matcher.levels optional r.format? := by
        rw [levels, hopt]
        rfl
      rw [hlev]
      cases m with
      | zero => exact .inl ⟨rfl, rfl⟩
      | succ m =>
        right
        refine ⟨s.slots ++ ((Matcher.levels optional r.format?).take m).flatMap Level.slots, rfl, ?_⟩
        simp [Matcher.afterSlash, Level.slots, ← List.map_take, List.flatMap]

/-- Spelled by an assignment, the slots of a path with `m` optional levels are that path. -/
theorem spell_slotsAt (h : r.Compiled) (m : Nat) (σ : Text → Text) :
    (r.slotsAt m).flatMap (Slot.spell σ) = Level.path σ (r.shown m) := by
  have hpath (hne : r.shown m ≠ []) :
      Level.path σ (r.shown m) = ((r.shown m).flatMap Level.slots).flatMap (Slot.spell σ) := by
    rw [Level.path, if_neg (by simpa using hne), List.flatMap_assoc]
    rfl
  rcases slotsAt_eq h m with ⟨hne, heq⟩ | ⟨hnil, heq⟩ | ⟨slots, hslots, heq⟩
  · rw [heq, ← hpath hne]
  · rw [heq, hnil]
    rfl
  · rw [heq, hpath, hslots]
    · rfl
    · intro hnil
      rw [hnil] at hslots
      cases hslots

/-- The captures among the slots of a path are those of the levels shown. -/
theorem mem_slotsAt (h : r.Compiled) (m : Nat) {name : Text} {glob : Bool} :
    Slot.capture name glob ∈ r.slotsAt m ↔ ∃ l ∈ r.shown m, Slot.capture name glob ∈ l.slots := by
  rw [← List.mem_flatMap]
  rcases slotsAt_eq h m with ⟨-, heq⟩ | ⟨hnil, heq⟩ | ⟨slots, hslots, heq⟩
  · rw [heq]
  · rw [heq, hnil]
    simp
  · rw [heq, hslots]
    simp

theorem names_slotsAt (h : r.Compiled) (m : Nat) :
    Slot.names (r.slotsAt m) = (r.shown m).flatMap Level.names := by
  rcases slotsAt_eq h m with ⟨-, heq⟩ | ⟨hnil, heq⟩ | ⟨slots, hslots, heq⟩
  · rw [heq, Level.names_flatMap_slots]
  · rw [heq, hnil]
    rfl
  · rw [heq, ← Level.names_flatMap_slots, hslots]
    rfl

/-- The parameters in order: those of the first levels, then the others. -/
theorem names_eq (h : r.Compiled) (m : Nat) :
    segmentNames r.segments =
      (r.shown m).flatMap Level.names ++ (r.levels.drop m).flatMap Level.names := by
  have hlevels : r.levels.flatMap Level.names = segmentNames r.optional ++ r.format?.toList :=
    Matcher.names_levels r.optional r.format?
  have hsplit : r.levels.flatMap Level.names =
      (r.levels.take m).flatMap Level.names ++ (r.levels.drop m).flatMap Level.names := by
    rw [← List.flatMap_append, List.take_append_drop]
  rw [h.segments, Template.Parts.names_segments, shown, List.flatMap_append, List.append_assoc,
    ← hsplit, hlevels, List.flatMap_map]
  rfl

/-! ## The segment of a parameter -/

section Segments

variable {m : Nat} {name : Text} {glob : Bool} {s s' : Segment}

omit [Properties] in
theorem mem_names_of_mem_slots (h : Slot.capture name glob ∈ s.slots) : name ∈ s.names := by
  rw [← s.names_slots]
  exact Slot.mem_names.2 ⟨glob, h⟩

omit [Properties] in
/-- A level has the captures of its segment. -/
theorem mem_slots_segmentOf {l : Level} :
    Slot.capture name glob ∈ l.slots ↔ Slot.capture name glob ∈ (segmentOf l).slots := by
  cases l with
  | component s => simp [Level.slots, segmentOf]
  | format n => simp [Level.slots, segmentOf, Segment.slots]

omit [Properties] in
/-- Segments that capture one parameter stand at one place. -/
theorem eq_of_mem_names {segments : List Segment} (hnodup : (segmentNames segments).Nodup)
    {i j : Nat} (hi : segments[i]? = some s) (hj : segments[j]? = some s')
    (hname : name ∈ s.names) (hname' : name ∈ s'.names) : i = j := by
  have hpairwise := (List.nodup_flatMap.1 hnodup).2
  rw [List.pairwise_iff_getElem] at hpairwise
  obtain ⟨hilt, rfl⟩ := List.getElem?_eq_some_iff.1 hi
  obtain ⟨hjlt, rfl⟩ := List.getElem?_eq_some_iff.1 hj
  by_contra hne
  rcases Nat.lt_or_gt_of_ne hne with hlt | hlt
  · exact hpairwise i j hilt hjlt hlt hname hname'
  · exact hpairwise j i hjlt hilt hlt hname' hname

/-- Only one segment captures a parameter. -/
theorem segment_unique (h : r.Compiled) (hs : s ∈ r.segments) (hs' : s' ∈ r.segments)
    (hname : name ∈ s.names) (hname' : name ∈ s'.names) : s = s' := by
  obtain ⟨i, hi⟩ := List.mem_iff_getElem?.1 hs
  obtain ⟨j, hj⟩ := List.mem_iff_getElem?.1 hs'
  obtain rfl := eq_of_mem_names h.nodup hi hj hname hname'
  exact Option.some.inj (hi.symm.trans hj)

/-- A glob is the last component, and nothing may be missing. -/
theorem required_of_glob (h : r.Compiled) (hmem : .glob name ∈ r.segments) :
    ∃ before, r.required = before ++ [.glob name] ∧ r.optional = [] ∧ r.format? = none := by
  rw [h.segments, Template.Parts.segments, List.mem_append, List.mem_append] at hmem
  rcases hmem with (hmem | hmem) | hmem
  · obtain ⟨a, b, hab⟩ := List.append_of_mem hmem
    obtain ⟨rfl, hopt, hformat⟩ := h.shape.glob a b name hab
    exact ⟨a, hab, hopt, hformat⟩
  · obtain ⟨n, hn⟩ := h.shape.optional _ hmem
    cases hn
  · obtain ⟨n, -, hn⟩ := List.mem_map.1 hmem
    cases hn

/-- A glob is the last segment of a route. -/
theorem glob_last (h : r.Compiled) (hmem : .glob name ∈ r.segments) :
    r.segments.getLast? = some (.glob name) := by
  obtain ⟨before, hreq, hopt, hformat⟩ := required_of_glob h hmem
  rw [h.segments, Template.Parts.segments, parts, hreq, hopt, hformat]
  simp

/-- A capture is that of a glob when the parameter is one. -/
theorem isGlob_of_mem_slots (h : r.Compiled) (hs : s ∈ r.segments)
    (hc : Slot.capture name glob ∈ s.slots) : r.isGlob name = glob := by
  cases glob with
  | true =>
    rw [Segment.eq_glob_of_mem_slots hc] at hs
    rw [isGlob, decide_eq_true_iff]
    exact glob_last h hs
  | false =>
    rw [isGlob, decide_eq_false_iff_not]
    intro hlast
    have := segment_unique h hs (List.mem_of_getLast? hlast) (mem_names_of_mem_slots hc)
      List.mem_cons_self
    rw [this] at hc
    simp [Segment.slots] at hc

theorem isGlob_eq (h : r.Compiled) {l : Level} (hl : l ∈ r.shown m)
    (hc : Slot.capture name glob ∈ l.slots) : r.isGlob name = glob :=
  isGlob_of_mem_slots h (segmentOf_mem h hl) (mem_slots_segmentOf.1 hc)

end Segments

/-! ## What a route matches -/

/-- The expression of a route matches its slots with fitting texts filled in. -/
theorem chain_iff {t : Text} {g : Groups} :
    Expr.Chain (Slot.exprs 0 (Matcher.fixedSlots r.required) ++
        Slot.nested (Slot.captures (Matcher.fixedSlots r.required)).length
          (Matcher.levelSlots r.required r.optional r.format?)) [] t [] g ↔
      ∃ m ≤ (Matcher.levelSlots r.required r.optional r.format?).length, ∃ texts,
        Slot.FitAll (r.slotsAt m) texts ∧ t = Slot.fill (r.slotsAt m) texts ∧
          g = Slot.bound 0 texts := by
  have hsplit (m : Nat) : (∃ texts, Slot.FitAll (r.slotsAt m) texts ∧
      t = Slot.fill (r.slotsAt m) texts ∧ g = Slot.bound 0 texts) ↔
      Expr.Chain (Slot.exprs 0 (r.slotsAt m)) [] t [] g := Slot.chain_exprs.symm
  -- the fixed slots come first, and then as many of the nested levels as are shown
  simp only [hsplit]
  simp only [slotsAt, Slot.exprs_append, Expr.chain_append, Nat.zero_add]
  constructor
  · rintro ⟨t₁, t₂, g₁, g₂, rfl, rfl, h₁, h₂⟩
    obtain ⟨m, hm, h₂⟩ := Slot.chain_nested.1 h₂
    exact ⟨m, hm, t₁, t₂, g₁, g₂, rfl, rfl, h₁, h₂⟩
  · rintro ⟨m, hm, t₁, t₂, g₁, g₂, rfl, rfl, h₁, h₂⟩
    exact ⟨t₁, t₂, g₁, g₂, rfl, rfl, h₁, Slot.chain_nested.2 ⟨m, hm, h₂⟩⟩

/-- The slots of the optional tail are one list for every level. -/
theorem length_levelSlots (r : Route) :
    (Matcher.levelSlots r.required r.optional r.format?).length = r.levels.length := by
  have hafter (levels : List (List Slot)) :
      (Matcher.afterSlash levels).length = levels.length := by
    match levels with
    | [] | [] :: _ | (_ :: _) :: _ => rfl
  rw [Matcher.levelSlots]
  split
  · rw [hafter, List.length_map]
    rfl
  · exact List.length_map _

/-- The parameters of the first levels are distinct. -/
theorem nodup_shown (h : r.Compiled) (m : Nat) : ((r.shown m).flatMap Level.names).Nodup := by
  have := h.nodup
  rw [names_eq h m] at this
  exact (List.nodup_append.1 this).1

/-- The fillings of a route's slots are the paths that it describes. -/
theorem describes_iff (h : r.Settled) {m : Nat} {σ : Text → Text} {t : Text} :
    r.Describes m σ t ↔
      m ≤ r.levels.length ∧ Slot.FitAll (r.slotsAt m) ((Slot.names (r.slotsAt m)).map σ) ∧
        t = Slot.fill (r.slotsAt m) ((Slot.names (r.slotsAt m)).map σ) := by
  rw [Slot.fitAll_map, Slot.fill_map, spell_slotsAt h.toCompiled]
  simp only [mem_slotsAt h.toCompiled]
  constructor
  · rintro ⟨hle, hfits, hpath⟩
    exact ⟨hle, fun name glob ⟨l, hl, hs⟩ => hfits l hl name glob hs, hpath⟩
  · rintro ⟨hle, hfits, hpath⟩
    exact ⟨hle, fun l hl name glob hs => hfits name glob ⟨l, hl, hs⟩, hpath⟩

/-- What the expression of a route matches. -/
theorem matches_matcher (h : r.Settled) :
    r.matcher.expr.Matches =
      Expr.Chain (.look .start :: (Slot.exprs 0 (Matcher.fixedSlots r.required) ++
        Slot.nested (Slot.captures (Matcher.fixedSlots r.required)).length
          (Matcher.levelSlots r.required r.optional r.format?)) ++ [.look .stop]) := by
  obtain ⟨depth, -, -, hkeys, hspells⟩ := Matcher.spells_ofSegments h.bare
    (h.segments ▸ Template.Parts.splitFormat_segments h.shape) h.shape.required h.shape.optional
    h.format
  have hparsed := r.matcher.parsed
  -- the source of the matcher spells this chain, and so parsing it gives the chain back
  rw [h.source, hspells.parse (Matcher.nodup_groupNames ..)] at hparsed
  split at hparsed
  · split at hparsed
    · rw [← Except.ok.inj hparsed]
      exact Expr.matches_ofParts _
    · cases hparsed
  · cases hparsed

/-- What is bound in a match, the path describes. -/
theorem describes_of_find (h : r.Settled) {t : Text} {g : Groups}
    (hg : r.matcher.match? t = some g) :
    ∃ m σ, r.Describes m σ t ∧ g = Slot.bound 0 (((r.shown m).flatMap Level.names).map σ) := by
  obtain ⟨m, hm, texts, hfit, rfl, rfl⟩ :=
    chain_iff.1 (matches_of_find_anchored (matches_matcher h) hg)
  rw [length_levelSlots] at hm
  have hlen : texts.length = (Slot.names (r.slotsAt m)).length := by
    rw [Slot.names, List.length_map]
    exact hfit.length_eq.symm
  obtain ⟨σ, rfl⟩ := Slot.exists_assignment hlen
    (names_slotsAt h.toCompiled m ▸ nodup_shown h.toCompiled m)
  exact ⟨m, σ, (describes_iff h).2 ⟨hm, hfit, rfl⟩, by rw [names_slotsAt h.toCompiled]⟩

/-- A route matches exactly the paths that it describes. -/
theorem isSome_match_iff (h : r.Settled) {t : Text} :
    (r.match? t).isSome = true ↔ ∃ m σ, r.Describes m σ t := by
  rw [match?, Option.isSome_map]
  constructor
  · intro hsome
    obtain ⟨g, hg⟩ := Option.isSome_iff_exists.1 hsome
    obtain ⟨m, σ, hdescribes, -⟩ := describes_of_find h hg
    exact ⟨m, σ, hdescribes⟩
  · rintro ⟨m, σ, hdescribes⟩
    obtain ⟨hm, hfit, ht⟩ := (describes_iff h).1 hdescribes
    refine (isSome_find_anchored (matches_matcher h)).2 ⟨_, chain_iff.2 ⟨m, ?_, _, hfit, ht, rfl⟩⟩
    rwa [length_levelSlots]

/-! ## The parameters of a path -/

omit [Properties] in
/-- The text of a group, by its number. -/
theorem lookup_bound (i n : Nat) (texts : List Text) :
    Dict.lookup (Matcher.groupName i) (Slot.bound n texts) =
      if n ≤ i then texts[i - n]? else none := by
  induction texts generalizing n with
  | nil => simp [Slot.bound, Dict.lookup]
  | cons t texts ih =>
    rw [Slot.bound, Dict.lookup_append, ih, Dict.lookup, Dict.lookup]
    -- the groups are numbered, and different numbers have different names
    by_cases heq : n = i
    · subst heq
      rw [if_neg (by omega), if_pos rfl, if_pos (Nat.le_refl n), Nat.sub_self]
      rfl
    · have hname : Matcher.groupName n ≠ Matcher.groupName i :=
        fun h => heq (Matcher.groupName_inj h)
      rw [if_neg hname, Option.or_none]
      by_cases hle : n ≤ i
      · rw [if_pos (by omega), if_pos hle, show i - n = i - (n + 1) + 1 by omega,
          List.getElem?_cons_succ]
      · rw [if_neg (by omega), if_neg hle]

/-- Groups are overlaid one list of keys after the other, with the count going on. -/
theorem overlayGroups_append (b : Groups) (params : Params) (n : Nat) (keys keys' : List Text) :
    r.overlayGroups b params n (keys ++ keys') =
      r.overlayGroups b (r.overlayGroups b params n keys) (n + keys.length) keys' := by
  induction keys generalizing params n with
  | nil => rfl
  | cons key keys ih =>
    rw [List.cons_append, overlayGroups, overlayGroups, ih, List.length_cons, Nat.add_assoc,
      Nat.add_comm 1]

/-- Groups that are not bound leave the parameters as they are. -/
theorem overlayGroups_unbound {b : Groups} {n : Nat} {keys : List Text}
    (hb : ∀ i, n ≤ i → Dict.lookup (Matcher.groupName i) b = none) (params : Params) :
    r.overlayGroups b params n keys = params := by
  induction keys generalizing params n with
  | nil => rfl
  | cons key keys ih =>
    rw [overlayGroups, hb n (Nat.le_refl n)]
    exact ih (fun i hi => hb i (by omega)) params

/-- Overlaying groups leaves a parameter without a group as it is. -/
theorem get?_overlayGroups_of_not_mem {b : Groups} {n : Nat} {keys : List Text} {k : Text}
    (hk : k ∉ keys) (params : Params) :
    (r.overlayGroups b params n keys).get? k = params.get? k := by
  induction keys generalizing params n with
  | nil => rfl
  | cons key keys ih =>
    rw [List.mem_cons, not_or] at hk
    rw [overlayGroups, ih hk.2]
    split
    · rfl
    · rw [Dict.get?_insert, if_neg (Ne.symm hk.1)]

/-- A captured name stands for what its group is bound to, and is left as it was when the group has
no text. -/
theorem get?_overlayGroups_of_key {b : Groups} {n i : Nat} {keys : List Text} {k : Text}
    (hnodup : keys.Nodup) (hk : keys[i]? = some k) (params : Params) :
    (r.overlayGroups b params n keys).get? k =
      ((Dict.lookup (Matcher.groupName (n + i)) b).map (r.capturedValue k)).or (params.get? k) := by
  induction keys generalizing params n i with
  | nil => cases hk
  | cons key keys ih =>
    obtain ⟨hnew, hnodup⟩ := List.nodup_cons.1 hnodup
    rw [overlayGroups]
    cases i with
    | zero =>
      cases hk
      -- the key does not come again, so the rest does not overwrite its value
      rw [get?_overlayGroups_of_not_mem hnew, Nat.add_zero]
      cases Dict.lookup (Matcher.groupName n) b with
      | none => rfl
      | some raw => exact (Dict.get?_insert ..).trans (if_pos rfl)
    | succ i =>
      rw [List.getElem?_cons_succ] at hk
      have hne : key ≠ k := by
        rintro rfl
        exact hnew (List.mem_of_getElem? hk)
      rw [ih hnodup hk, Nat.add_right_comm n 1 i, Nat.add_assoc]
      congr 1
      split
      · rfl
      · rw [Dict.get?_insert, if_neg hne]

/-- When every group is bound, each key reads the value of its own text. -/
theorem get?_overlayGroups {b : Groups} {n : Nat} {keys : List Text} (σ : Text → Text)
    (hnodup : keys.Nodup)
    (hb : ∀ i, (h : i < keys.length) →
      Dict.lookup (Matcher.groupName (n + i)) b = some (σ keys[i]))
    (params : Params) (k : Text) :
    (r.overlayGroups b params n keys).get? k =
      if k ∈ keys then some (r.capturedValue k (σ k)) else params.get? k := by
  split
  · next hk =>
    obtain ⟨i, hi, rfl⟩ := List.getElem_of_mem hk
    rw [get?_overlayGroups_of_key hnodup (List.getElem?_eq_getElem hi), hb i hi]
    rfl
  · next hk => exact get?_overlayGroups_of_not_mem hk params

/-- What is captured is never nil. -/
theorem isNil_capturedValue (r : Route) (name t : Text) :
    (r.capturedValue name t).isNil = false := by
  rw [capturedValue]
  split <;> rfl

/-- The groups of a match are bound to the texts of a path, and the parameters are what these stand
for, and the defaults of all others but nil. -/
theorem get?_of_match (h : r.Settled) {t : Text} {params : Params} (hm : r.match? t = some params) :
    ∃ m σ, r.Describes m σ t ∧
      r.matcher.match? t = some (Slot.bound 0 (((r.shown m).flatMap Level.names).map σ)) ∧
      ∀ k, params.get? k =
        if k ∈ (r.shown m).flatMap Level.names then some (r.capturedValue k (σ k))
        else (r.defaults.get? k).filter fun v => !v.isNil := by
  obtain ⟨g, hg, rfl⟩ := Option.map_eq_some_iff.1 hm
  obtain ⟨m, σ, hdescribes, rfl⟩ := describes_of_find h hg
  refine ⟨m, σ, hdescribes, hg, fun k => ?_⟩
  -- the groups of the levels shown are bound to their texts, and those after them are not bound
  rw [Dict.get?_filter, h.groups, names_eq h.toCompiled m, overlayGroups_append,
    overlayGroups_unbound, get?_overlayGroups σ (nodup_shown h.toCompiled m)]
  · split
    · rw [Option.filter_some, isNil_capturedValue]
      rfl
    · rfl
  · intro i hi
    rw [lookup_bound, if_pos (Nat.zero_le _), Nat.zero_add, Nat.sub_zero, List.getElem?_map,
      List.getElem?_eq_getElem hi, Option.map_some]
  · intro i hi
    rw [lookup_bound, if_pos (Nat.zero_le _), List.getElem?_eq_none]
    rw [List.length_map]
    omega

end Route

end Routing
