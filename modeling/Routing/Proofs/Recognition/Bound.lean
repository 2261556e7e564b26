import Routing.Proofs.Recognition.Accepted
import Routing.Proofs.Recognition.Components

/-!
# Captures without text

A requirement may accept the empty text, and a capture takes up whole components. As a path has no
empty ones, such a capture is bound to no text in two places only: in the root path, when it comes
first, and before a format whose dot follows a slash. Otherwise it is bound to a component at least,
or else it is optional and has its default.

* `Path.lt_length_of_slash`, `Route.length_le_count` — slashes in a path and in front of a level
* `Route.level_of_captures` — the level of a capture that is bound
* `Route.MayBeEmpty` — the places without a component
* `Table.bound_or_default` — what captures are bound to in a request
-/

namespace Routing

/-! ## Slashes of a path -/

namespace Path

variable {parts : List Text}

/-- Parts without slashes have one slash each in front of them. -/
theorem count_ofComponents (h : ∀ part ∈ parts, '/' ∉ part) (hne : parts ≠ []) :
    (ofComponents parts).count '/' = parts.length := by
  rw [ofComponents_eq_flatMap hne]
  clear hne
  induction parts with
  | nil => rfl
  | cons part parts ih =>
    obtain ⟨hpart, hparts⟩ := List.forall_mem_cons.1 h
    rw [List.flatMap_cons, List.count_append, List.count_cons_self, List.count_eq_zero.2 hpart,
      ih hparts, List.length_cons]
    omega

/-- Slashes with something after them have a component each. -/
theorem lt_length_of_slash {before rest : Text} {i : Nat} (h : ∀ part ∈ parts, '/' ∉ part)
    (hpath : ofComponents parts = before ++ '/' :: rest) (hrest : rest ≠ [])
    (hi : i ≤ before.count '/') : i < parts.length := by
  by_cases hnil : parts = []
  · subst hnil
    have hlength := congrArg List.length hpath
    have := List.length_pos_iff.2 hrest
    simp [ofComponents] at hlength
    omega
  · have hslashes := count_ofComponents h hnil
    rw [hpath, List.count_append, List.count_cons_self] at hslashes
    omega

end Path

/-! ## Levels and segments -/

namespace Route

open Regex

variable [Properties] {r : Route} {L : Text → Bool → Lang} {N : Text → Bool → List Text}
  {path k raw : Text} {m i n : Nat} {optional : Bool}

/-- The segments of the levels shown are the first ones. -/
theorem getElem?_segments (h : r.Compiled) {l : Level} (hl : (r.shown m)[i]? = some l) :
    r.segments[i]? = some (segmentOf l) := by
  -- the levels shown come from segments at the beginning of the pattern
  have hprefix : (r.shown m).map segmentOf <+: r.segments := by
    have hmap : (r.shown m).map segmentOf = (r.required ++ r.optional.take m) ++
        (r.format?.toList.take (m - r.optional.length)).map .format := by
      rw [shown_eq, List.map_append, List.map_map, List.map_map]
      exact congrArg (· ++ _) (List.map_id _)
    rw [hmap, h.segments, Template.Parts.segments]
    by_cases hm : m ≤ r.optional.length
    · rw [Nat.sub_eq_zero_of_le hm, List.take_zero, List.map_nil, List.append_nil,
        List.append_assoc]
      have htake : r.optional.take m <+: r.optional := List.take_prefix _ _
      exact (List.prefix_append_right_inj _).2 (htake.trans (List.prefix_append _ _))
    · rw [List.take_of_length_le (by omega), List.map_take]
      exact (List.prefix_append_right_inj _).2 (List.take_prefix _ _)
  have hget : ((r.shown m).map segmentOf)[i]? = some (segmentOf l) := by
    rw [List.getElem?_map, hl, Option.map_some]
  obtain ⟨rest, hrest⟩ := hprefix
  rw [← hrest, List.getElem?_append_left (List.getElem?_eq_some_iff.1 hget).1, hget]

/-- The levels before a component are components. -/
theorem isComponent_of_before {before after : List Level} {s : Segment}
    (hshown : r.shown m = before ++ .component s :: after) {l : Level} (hl : l ∈ before) :
    l.separator = '/' := by
  rw [shown_eq] at hshown
  rcases List.append_eq_append_iff.1 hshown with ⟨front, hbefore, hformat⟩ | ⟨back, hcomponents, -⟩
  · have hmem : Level.component s ∈
        (r.format?.toList.take (m - r.optional.length)).map .format := by
      rw [hformat]
      simp
    obtain ⟨name, -, hname⟩ := List.mem_map.1 hmem
    cases hname
  · have hmem : l ∈ (r.required ++ r.optional.take m).map Level.component := by
      rw [hcomponents]
      exact List.mem_append_left _ hl
    obtain ⟨s', -, rfl⟩ := List.mem_map.1 hmem
    rfl

omit [Properties] in
/-- The text of components has a slash for each of them. -/
theorem length_le_count {levels : List Level} (hlevels : ∀ l ∈ levels, l.separator = '/')
    {l t r' : Text} {g : Groups} (hM : Slot.lang L n (levels.flatMap Level.slots) l t r' g) :
    levels.length ≤ t.count '/' := by
  -- on the levels, each of which spells its own slash
  induction levels generalizing n l t g with
  | nil => exact Nat.zero_le _
  | cons level levels ih =>
    obtain ⟨hlevel, hlevels⟩ := List.forall_mem_cons.1 hlevels
    rw [List.flatMap_cons, Level.slots_eq, List.cons_append, hlevel] at hM
    obtain ⟨t₁, t₂, g₁, g₂, rfl, -, h₁, h₂⟩ := hM
    obtain ⟨rfl, -⟩ := (Slot.chain_literal _).1 h₁
    rw [Slot.lang_append] at h₂
    obtain ⟨t₃, t₄, g₃, g₄, rfl, -, -, h₄⟩ := h₂
    have hrest := ih hlevels h₄
    rw [List.length_cons, List.singleton_append, List.count_cons_self, List.count_append]
    omega

/-! ## Captures that are bound -/

/-- A name that is a whole component stands in no component with other pieces. -/
theorem standsAlone_of_segment (h : r.Compiled) (hk : r.segments[i]? = some (.capture k optional)) :
    r.StandsAlone k := by
  intro pieces hpieces hmem
  have hnames : k ∈ (Segment.compound pieces).names :=
    List.mem_filterMap.2 ⟨.capture k, hmem, rfl⟩
  cases segment_unique h (List.mem_of_getElem? hk) hpieces (List.mem_singleton_self k) hnames

theorem isGlob_of_segment (h : r.Compiled) (hk : r.segments[i]? = some (.capture k optional)) :
    r.isGlob k = false :=
  isGlob_of_mem_slots h (List.mem_of_getElem? hk) (List.mem_singleton_self _)

/-- A capture of a whole component stands after the slash of its level, and the other levels stand
around it. -/
theorem level_of_captures (h : r.Compiled)
    (hguards : ∀ slots, Slot.Guards r.requirements L N slots)
    (hbind : ∀ slots, Slot.Bind L N slots)
    (hk : r.segments[i]? = some (.capture k optional)) (hc : r.Captures path k raw) :
    ∃ m start rest before after n, r.shown m = start ++ .component (.capture k optional) :: rest ∧
      start.length = i ∧ path = before ++ '/' :: (raw ++ after) ∧ i ≤ before.count '/' ∧
      ∃ l g, Slot.lang L n (rest.flatMap Level.slots) l after [] g := by
  obtain ⟨m, a, glob, b, before, after, n, hslots, rfl, ⟨ga, ha⟩, -, gb, hb⟩ :=
    slots_of_captures h hguards hbind hc
  have halone := standsAlone_of_segment h hk
  obtain ⟨start, level, rest, hshown, hsegment, rfl, rfl⟩ := Level.exists_of_slots
    (fun l hl pieces heq => halone pieces (heq ▸ segmentOf_mem h hl)) hslots
  have hget : r.segments[start.length]? = some (segmentOf level) :=
    getElem?_segments h (m := m) (by rw [hshown]; simp)
  have hname : k ∈ (segmentOf level).names := by
    rw [← Segment.names_slots, hsegment]
    exact List.mem_singleton_self k
  -- names are different, so the level that captures `k` is the one at its place
  obtain rfl := eq_of_mem_names h.nodup hk hget (List.mem_singleton_self k) hname
  obtain rfl : level = .component (.capture k optional) := by
    cases level with
    | component s => exact congrArg Level.component (Option.some.inj (hget.symm.trans hk))
    | format name => cases hget.symm.trans hk
  rw [Slot.lang_append] at ha
  obtain ⟨t₁, t₂, g₁, g₂, rfl, -, h₁, h₂⟩ := ha
  rw [Slot.lang, Slot.lang, Lang.seq_nil] at h₂
  obtain ⟨rfl, -⟩ := (Slot.chain_literal _).1 h₂
  refine ⟨m, start, rest, t₁, after, n, hshown, rfl, by simp [Level.separator], ?_, _, gb, hb⟩
  exact length_le_count (fun l hl => isComponent_of_before hshown hl) h₁

/-- A required capture is bound in every path that is matched. -/
theorem exists_captures_of_required (h : r.Compiled)
    (hguards : ∀ slots, Slot.Guards r.requirements L N slots)
    (hk : .capture k false ∈ r.segments) (hm : (r.matcher.match? path).isSome = true) :
    ∃ raw, r.Captures path k raw := by
  obtain ⟨bound, hb⟩ := Option.isSome_iff_exists.1 hm
  obtain ⟨m, hM⟩ := lang_of_match h hguards hb
  have hrequired : .capture k false ∈ r.required := by
    rw [h.segments, Template.Parts.segments, List.mem_append, List.mem_append] at hk
    rcases hk with (hk | hk) | hk
    · exact hk
    · obtain ⟨name, hname⟩ := h.shape.optional _ hk
      cases hname
    · obtain ⟨name, -, hname⟩ := List.mem_map.1 hk
      cases hname
  have hshown : k ∈ (r.shown m).flatMap Level.names :=
    List.mem_flatMap.2 ⟨.component (.capture k false),
      List.mem_append_left _ (List.mem_map_of_mem hrequired), List.mem_singleton_self k⟩
  obtain ⟨n, hn⟩ := List.mem_iff_getElem?.1 hshown
  have hlt := (List.getElem?_eq_some_iff.1 hn).1
  have hgroup : r.groups[n]? = some k := by
    rw [h.groups, names_eq h m, List.getElem?_append_left hlt, hn]
  rw [← names_slotsAt h, Slot.names, List.length_map] at hlt
  obtain ⟨raw, hraw⟩ := Option.isSome_iff_exists.1
    (Slot.isSome_lookup_of_lang hM (Nat.zero_le n) (by omega))
  exact ⟨raw, bound, n, hb, hgroup, hraw⟩

/-- A parameter that is not bound has its default. -/
theorem get?_of_not_captures (h : r.Compiled) (hk : r.segments[i]? = some (.capture k optional))
    (hc : ∀ raw, ¬ r.Captures path k raw) {params : Params} (hm : r.match? path = some params) :
    params.get? k = (r.defaults.get? k).filter fun v => !v.isNil := by
  obtain ⟨bound, hb, rfl⟩ := Option.map_eq_some_iff.1 hm
  have hmem : k ∈ r.groups := by
    rw [h.groups]
    exact List.mem_flatMap.2 ⟨_, List.mem_of_getElem? hk, List.mem_singleton_self k⟩
  obtain ⟨n, hn⟩ := List.mem_iff_getElem?.1 hmem
  have hnone : Dict.lookup (Matcher.groupName (0 + n)) bound = none := by
    rw [Nat.zero_add, Option.eq_none_iff_forall_ne_some]
    exact fun raw hraw => hc raw ⟨bound, n, hb, hn, hraw⟩
  rw [Dict.get?_filter, get?_overlayGroups_of_key (h.groups ▸ h.nodup) hn, hnone, Option.map_none,
    Option.none_or]

/-! ## Captures without text -/

/-- The capture at this place among the segments may be bound to the empty text: its requirement
accepts that, and either it comes first and the path is the root, or it comes last and its component
begins with the dot of the format. -/
structure MayBeEmpty (r : Route) (path : Text) (i : Nat) (k : Text) : Prop where
  accepted : ∃ q, r.requirements.get? k = some q ∧ q.accepts [] = true
  place : i = 0 ∧ path = ['/'] ∨
    i < (Path.components path).length ∧ ∃ name before after,
      r.segments[i + 1]? = some (.format name) ∧ path = before ++ '/' :: '.' :: after

/-- In a path without empty components a capture without text stands in one of these places. -/
theorem Guarded.mayBeEmpty (h : r.Guarded) {parts : List Text}
    (hparts : ∀ part ∈ parts, part ≠ [] ∧ '/' ∉ part)
    (hk : r.segments[i]? = some (.capture k optional))
    (hc : r.Captures (Path.ofComponents parts) k []) :
    r.MayBeEmpty (Path.ofComponents parts) i k := by
  obtain ⟨L, N, hguards, hbind, hembeds, hne⟩ := h.exists_langs
  constructor
  case accepted =>
    obtain ⟨before, after, glob, g, -, hM, hapart⟩ :=
      place_of_captures h.toCompiled hguards hbind hc
    cases hq : r.requirements.get? k with
    | none => exact absurd rfl (hne k glob hq _ _ _ _ hM)
    | some q =>
      exact ⟨q, rfl, (hembeds k q glob hq).accepts hM
        (.inr (hapart (standsAlone_of_segment h.toCompiled hk)))⟩
  case place =>
    obtain ⟨m, start, rest, before, after, n, hshown, rfl, hpath, hcount, l, g, hrest⟩ :=
      level_of_captures h.toCompiled hguards hbind hk hc
    rw [List.nil_append] at hpath
    by_cases hnil : parts = []
    · subst hnil
      left
      cases before with
      | nil => exact ⟨Nat.le_zero.1 hcount, rfl⟩
      | cons c before => simp [Path.ofComponents] at hpath
    · right
      have hafter {part : Text} (hpart : part ∈ after.splitOn '/') : part ≠ [] :=
        (hparts part (Path.mem_of_mem_splitOn hnil (fun part hpart => (hparts part hpart).2) hpath
          hpart)).1
      cases rest with
      | nil =>
        obtain ⟨rfl, -⟩ := hrest
        exact absurd rfl (hafter (by rw [List.splitOn_nil]; exact List.mem_singleton_self _))
      | cons level rest =>
        rw [List.flatMap_cons, Level.slots_eq, List.cons_append] at hrest
        obtain ⟨t₁, after, g₁, g₂, rfl, -, h₁, -⟩ := hrest
        obtain ⟨rfl, -⟩ := (Slot.chain_literal _).1 h₁
        cases level with
        | component s =>
          have hmem : [] ∈ (([] : Text) ++ '/' :: after).splitOn '/' := by
            rw [List.splitOn_append_cons_self, List.splitOn_nil]
            exact List.mem_cons_self
          exact absurd rfl (hafter hmem)
        | format name =>
          have hnext : (r.shown m)[start.length + 1]? = some (.format name) := by
            simp [hshown]
          refine ⟨?_, name, before, after, getElem?_segments h.toCompiled hnext, hpath⟩
          rw [Path.components_ofComponents hparts]
          exact Path.lt_length_of_slash (fun part hpart => (hparts part hpart).2) hpath
            (List.cons_ne_nil _ _) hcount

/-- A capture that is bound to some text has a component of the path to itself. -/
theorem Guarded.lt_length (h : r.Guarded) {parts : List Text}
    (hparts : ∀ part ∈ parts, part ≠ [] ∧ '/' ∉ part)
    (hk : r.segments[i]? = some (.capture k optional))
    (hc : r.Captures (Path.ofComponents parts) k raw) (hraw : raw ≠ []) : i < parts.length := by
  obtain ⟨L, N, hguards, hbind, -⟩ := h.exists_langs
  obtain ⟨m, start, rest, before, after, n, -, -, hpath, hcount, -⟩ :=
    level_of_captures h.toCompiled hguards hbind hk hc
  exact Path.lt_length_of_slash (fun part hpart => (hparts part hpart).2) hpath
    (List.append_ne_nil_of_left_ne_nil hraw after) hcount

end Route

/-! ## Recognised requests -/

namespace Table

open Routing.Path (components beforeQuery restore)

section

variable [Properties] {t t' : Table} {ds : List Declaration} {request : Request} {params : Params}

/-- Where every requirement reads by itself, a request is recognised by a route each of whose
captures of whole components is bound or optional. When it is bound, the path has a component for
it and its value is a text that is not empty, unless its requirement accepts the empty text and the
path is the root, or the format stands right after the slash. When it is not bound it has its
default, or none at all, but that the action is `index` then. -/
theorem bound_or_default (hdraw : t.draw ds = .ok t') (hclosed : ∀ d ∈ ds, d.isClosed = true)
    (h : t'.recognize request = .ok params) :
    ∃ r, t'.RecognizedBy request r params ∧
      ∀ i k optional, r.segments[i]? = some (.capture k optional) →
        (∃ raw, r.Captures request.decoded k raw ∧ params.get? k = some (.str (restore raw)) ∧
          (restore raw ≠ [] ∧ i < (components (beforeQuery request.path)).length ∨
            restore raw = [] ∧ r.MayBeEmpty request.decoded i k)) ∨
        (optional = true ∧ (∀ raw, ¬ r.Captures request.decoded k raw) ∧
          params.get? k = ((r.defaults.get? k).filter fun v => !v.isNil).or
            (if k = actionKey then some (.str indexAction) else none)) := by
  obtain ⟨r, hr⟩ := recognize_eq_ok.1 h
  refine ⟨r, hr, fun i k optional hk => ?_⟩
  have hguarded := guarded_of_draw hdraw hclosed hr.mem
  obtain ⟨captured, hmatch, rfl⟩ := hr.match?
  -- the decoded path has a component for each one of the path
  obtain ⟨parts, hlength, hparts, hdecoded⟩ : ∃ parts : List Text,
      parts.length = (components (beforeQuery request.path)).length ∧
        (∀ part ∈ parts, part ≠ [] ∧ '/' ∉ part) ∧
          request.decoded = Path.ofComponents parts := by
    refine ⟨_, ?_, ?_, Path.decode_normalize_eq_ofComponents request.path⟩
    · rw [List.length_map]
    · rw [← Path.components_decode_normalize]
      exact fun part => Path.mem_components
  -- the name is captured, or else it is one that may be missing
  by_cases hbound : ∃ raw, r.Captures request.decoded k raw
  · obtain ⟨raw, hc⟩ := hbound
    have hvalue := hc.get? hguarded.toCompiled hmatch
    rw [Route.capturedValue, Route.isGlob_of_segment hguarded.toCompiled hk] at hvalue
    refine .inl ⟨raw, hc, Recognition.get?_complete hvalue, ?_⟩
    rw [hdecoded] at hc ⊢
    by_cases hnil : raw = []
    · subst hnil
      exact .inr ⟨rfl, hguarded.mayBeEmpty hparts hk hc⟩
    · exact .inl ⟨Path.restore_ne_nil hnil, hlength ▸ hguarded.lt_length hparts hk hc hnil⟩
  · refine .inr ⟨?_, not_exists.1 hbound, ?_⟩
    · by_contra hoptional
      rw [Bool.not_eq_true] at hoptional
      subst hoptional
      obtain ⟨L, N, hguards, -⟩ := hguarded.exists_langs
      have hsome : (r.matcher.match? request.decoded).isSome = true := by
        obtain ⟨bound, hb, -⟩ := Option.map_eq_some_iff.1 hmatch
        rw [hb]
        rfl
      exact hbound (Route.exists_captures_of_required hguarded.toCompiled hguards
        (List.mem_of_getElem? hk) hsome)
    · rw [Recognition.get?_complete_eq,
        Route.get?_of_not_captures hguarded.toCompiled hk (not_exists.1 hbound) hmatch]

end

/-- Pages whose names may be empty. -/
def draftDeclaration : Declaration :=
  { Declaration.blank with
    path := ":name.:format".toList
    defaults := .ofList [(controllerKey, .str "pages".toList), ("name".toList, .str "start".toList)]
    requirements := .ofList [("name".toList, .plain "[a-z]*".toList)] }

/-- The default is not used for the root path. -/
theorem bound_or_default_draft :
    ∃ t params r, empty.draw [draftDeclaration] = .ok t ∧
      t.recognize ⟨"/".toList, none, none⟩ = .ok params ∧
      t.RecognizedBy ⟨"/".toList, none, none⟩ r params ∧
      r.defaults.get? "name".toList = some (.str "start".toList) ∧
      params.get? "name".toList = some (.str []) ∧ r.MayBeEmpty ['/'] 0 "name".toList := by
  let t : Table := (empty.draw [draftDeclaration]).toOption.getD empty
  let params : Params := .ofList [(controllerKey, .str "pages".toList),
    (actionKey, .str "index".toList), ("name".toList, .str [])]
  have hdraw : empty.draw [draftDeclaration] = .ok t := by decide +kernel
  have hrecognize : t.recognize ⟨"/".toList, none, none⟩ = .ok params := by decide +kernel
  have hclosed : ∀ d ∈ [draftDeclaration], d.isClosed = true := by decide +kernel
  have hname : params.get? "name".toList = some (.str []) := by decide +kernel
  have hroute : ∀ r ∈ t.routes, r.segments[0]? = some (.capture "name".toList true) ∧
      r.defaults.get? "name".toList = some (.str "start".toList) := by
    decide +kernel
  obtain ⟨r, hr, hbound⟩ := bound_or_default hdraw hclosed hrecognize
  obtain ⟨hsegment, hdefault⟩ := hroute r hr.mem
  refine ⟨t, params, r, hdraw, hrecognize, hr, hdefault, hname, ?_⟩
  -- the value is the empty text, which is neither of the other cases
  rcases hbound 0 _ _ hsegment with ⟨raw, -, hvalue, ⟨hne, -⟩ | ⟨-, hempty⟩⟩ | ⟨-, -, hvalue⟩
  · exact absurd (Value.str.inj (Option.some.inj (hname.symm.trans hvalue))).symm hne
  · exact hempty
  · rw [hname, hdefault] at hvalue
    cases hvalue

end Table

end Routing
