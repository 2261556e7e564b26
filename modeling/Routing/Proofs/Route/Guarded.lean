import Mathlib.Tactic.Choose
import Routing.Proofs.Route.Language
import Routing.Proofs.Template.Grammar

/-!
# What captures are bound to

The group of a parameter holds its requirement, so that a match binds it to a text that this
requirement matches where it stands. A parameter that takes up a whole part of the path stands
between a slash or a dot and the next one, and there it makes no difference what is around it.

* `Level.exists_of_slots` — the level of a parameter that is not one of several pieces
* `Route.Guarded` — the requirements of a route match the same wherever they stand
* `Route.Captures`, `Route.slots_of_captures` — a path is matched with a text for a parameter, and
  where the text stands
* `Route.Guarded.accepts` — such a text is accepted by the requirement
-/

namespace Routing

open Regex

/-! ## Around a parameter -/

namespace Level

/-- No word goes across a separator. -/
theorem apart_separator (l : Level) : Look.Apart (some l.separator) := by
  have hslash : Look.Apart (some '/') := fun wide => by cases wide <;> decide +kernel
  have hdot : Look.Apart (some '.') := fun wide => by cases wide <;> decide +kernel
  cases l with
  | component s => exact hslash
  | format name => exact hdot

theorem slots_eq (l : Level) : l.slots = .text [l.separator] :: (Route.segmentOf l).slots := by
  cases l <;> rfl

/-- A parameter that is not one of several pieces is all of its segment. -/
theorem eq_nil_of_slots {s : Segment} {k : Text} {glob : Bool} {a b : List Slot}
    (hk : ∀ pieces, s = .compound pieces → .capture k ∉ pieces)
    (h : s.slots = a ++ .capture k glob :: b) : a = [] ∧ b = [] := by
  cases s with
  | static t => cases a <;> simp [Segment.slots] at h
  | capture | glob | format => cases a <;> simp_all [Segment.slots]
  | compound pieces =>
    have hmem : Slot.capture k glob ∈ (Segment.compound pieces).slots := by
      rw [h]
      simp
    obtain ⟨p, hp, heq⟩ := List.mem_map.1 hmem
    cases p with
    | literal t => cases heq
    | capture name =>
      cases heq
      exact absurd hp (hk pieces rfl)

/-- A parameter that is not one of several pieces is all of a level but for its separator. -/
theorem exists_of_slots {levels : List Level} {k : Text} {glob : Bool} {a b : List Slot}
    (hk : ∀ l ∈ levels, ∀ pieces, Route.segmentOf l = .compound pieces → .capture k ∉ pieces)
    (h : levels.flatMap slots = a ++ .capture k glob :: b) :
    ∃ before l after, levels = before ++ l :: after ∧
      (Route.segmentOf l).slots = [.capture k glob] ∧
      a = before.flatMap slots ++ [.text [l.separator]] ∧ b = after.flatMap slots := by
  -- on the levels: the capture stands in the first one or in a later one
  induction levels generalizing a with
  | nil => simp at h
  | cons l levels ih =>
    obtain ⟨hl, hlevels⟩ := List.forall_mem_cons.1 hk
    rw [List.flatMap_cons, slots_eq, List.cons_append] at h
    cases a with
    | nil => cases h
    | cons s a =>
      rw [List.cons_append] at h
      obtain ⟨rfl, htail⟩ := List.cons.inj h
      rcases List.append_eq_append_iff.1 htail with ⟨a', rfl, hrest⟩ | ⟨b', hslots, hrest⟩
      · obtain ⟨before, l', after, rfl, hsegment, rfl, hb⟩ := ih hlevels hrest
        refine ⟨l :: before, l', after, rfl, hsegment, ?_, hb⟩
        rw [List.flatMap_cons, slots_eq]
        simp
      · cases b' with
        | nil =>
          -- a level does not begin with a parameter
          obtain ⟨before, l', after, -, -, hnil, -⟩ := ih hlevels (a := []) hrest.symm
          simp at hnil
        | cons s' b' =>
          obtain ⟨rfl, rfl⟩ := List.cons.inj hrest
          have hsegment := hslots
          obtain ⟨rfl, rfl⟩ := eq_nil_of_slots hl hslots
          exact ⟨[], l, levels, rfl, hsegment, rfl, rfl⟩

end Level

namespace Slot

variable {L : Text → Bool → Lang} {n : Nat} {c : Char} {a : List Slot} {l t r : Text} {g : Groups}

theorem getElem?_names {name : Text} {glob : Bool} {b : List Slot} (h : (captures a).length = n) :
    (names (a ++ .capture name glob :: b))[n]? = some name := by
  rw [names_append, List.getElem?_append_right] <;> simp [names, captures, h]

/-- What ends with a fixed character ends with it in the text. -/
theorem getLast?_of_lang (h : lang L n (a ++ [.text [c]]) l t r g) : t.getLast? = some c := by
  rw [lang_append, lang, lang, Lang.seq_nil] at h
  obtain ⟨t₁, t₂, g₁, g₂, rfl, -, -, h₂⟩ := h
  obtain ⟨rfl, -⟩ := (chain_literal _).1 h₂
  exact List.getLast?_concat

theorem head?_of_lang (h : lang L n (.text [c] :: a) l t r g) : t.head? = some c := by
  obtain ⟨t₁, t₂, g₁, g₂, rfl, -, h₁, -⟩ := h
  obtain ⟨rfl, -⟩ := (chain_literal _).1 h₁
  rfl

end Slot

variable [Properties]

namespace Declaration

/-- Whether every requirement reads by itself. -/
def isClosed (d : Declaration) : Bool :=
  d.requirements.entries.all fun entry =>
    match Requirement.compile entry.2 with
    | .ok q => q.isClosed
    | .error _ => true

/-- The requirements of a closed declaration are closed. -/
theorem isClosed_requirement {d : Declaration} {k : Text} {source : Requirement.Source}
    {q : Requirement} (h : d.isClosed = true) (hk : d.requirements.get? k = some source)
    (hq : Requirement.compile source = .ok q) : q.isClosed = true := by
  have := List.all_eq_true.1 h _ (Dict.mem_entries_iff.2 hk)
  simpa only [hq] using this

end Declaration

namespace Route

variable {r : Route} {L : Text → Bool → Lang} {N : Text → Bool → List Text}
  {path k raw : Text} {q : Requirement}

/-! ## What a path is matched with -/

/-- The requirements of the route match the same wherever they stand. -/
structure Guarded (r : Route) : Prop extends Compiled r where
  embeds : ∀ k q, r.requirements.get? k = some q → ∃ M names, q.Embeds M names

/-- The parameter is not one of several pieces of a component. -/
def StandsAlone (r : Route) (k : Text) : Prop :=
  ∀ pieces, .compound pieces ∈ r.segments → .capture k ∉ pieces

/-- The path is matched with this text for the parameter. -/
def Captures (r : Route) (path k raw : Text) : Prop :=
  ∃ bound n, r.matcher.match? path = some bound ∧ r.groups[n]? = some k ∧
    Dict.lookup (Matcher.groupName n) bound = some raw

/-- A route is guarded when its requirements read by themselves, but for the one on controllers,
which is known to. -/
theorem guarded_of_compile {d : Declaration} {c : Requirement} (h : compile d c = .ok r)
    (hd : d.isClosed = true) (hc : ∃ M names, c.Embeds M names) : r.Guarded := by
  refine ⟨compiled_of_compile h, fun k q hq => ?_⟩
  obtain ⟨_, hrequirements, -⟩ := compile_eq_ok h
  obtain ⟨hnone, hsome⟩ := get?_compileRequirements hrequirements k
  -- a requirement is declared, and then closed, or it is the one on controllers
  cases hk : d.requirements.get? k with
  | none =>
    rw [hnone hk] at hq
    split at hq
    · cases hq
      exact hc
    · cases hq
  | some source =>
    obtain ⟨q', hcompile, hq'⟩ := hsome source hk
    cases hq'.symm.trans hq
    exact Requirement.embeds_of_closed (Declaration.isClosed_requirement hd hk hcompile)

/-- The grammar of a capture without a requirement binds nothing and matches no empty text. -/
theorem denotes_grammar (glob : Bool) :
    ∃ M, Denotes (if glob then Matcher.globGrammar else Matcher.componentGrammar) M [] ∧
      M.Binds [] ∧ ∀ l t r g, M l t r g → t ≠ [] := by
  have hrun (s : CharSet) : (Expr.Chain [.times 1 none true (.set s)]).Binds [] ∧
      ∀ l t r g, Expr.Chain [.times 1 none true (.set s)] l t r g → t ≠ [] := by
    rw [Expr.chain_cons, Expr.chain_nil, Lang.seq_nil]
    exact ⟨(Expr.binds_set s).times 1 none, fun l t r g ht => ((Expr.matches_run s).1 ht).1⟩
  cases glob with
  | false => exact ⟨_, .of_spells Slot.spells_component, hrun _⟩
  | true => exact ⟨_, .of_spells Slot.spells_glob, hrun _⟩

/-- Every capture matches a language, which is that of its requirement if it has one; otherwise it
has no empty text. -/
theorem Guarded.exists_langs (h : r.Guarded) :
    ∃ (L : Text → Bool → Lang) (N : Text → Bool → List Text),
      (∀ slots, Slot.Guards r.requirements L N slots) ∧ (∀ slots, Slot.Bind L N slots) ∧
        (∀ k q glob, r.requirements.get? k = some q → q.Embeds (L k glob) (N k glob)) ∧
        ∀ k glob, r.requirements.get? k = none → ∀ l t r' g, L k glob l t r' g → t ≠ [] := by
  have hall (k : Text) (glob : Bool) : ∃ M names,
      Denotes (grammarOf r.requirements
        (if glob then Matcher.globGrammar else Matcher.componentGrammar) k) M names ∧
      M.Binds names ∧ (∀ q, r.requirements.get? k = some q → q.Embeds M names) ∧
      (r.requirements.get? k = none → ∀ l t r' g, M l t r' g → t ≠ []) := by
    rw [grammarOf]
    cases hq : r.requirements.get? k with
    | none =>
      obtain ⟨M, hdenotes, hbinds, hne⟩ := denotes_grammar glob
      exact ⟨M, [], hdenotes, hbinds, (fun _ hq => by cases hq), fun _ => hne⟩
    | some q =>
      obtain ⟨M, names, hembeds⟩ := h.embeds k q hq
      refine ⟨M, names, hembeds.denotes, hembeds.binds, fun q' hq' => ?_, fun hq' => by cases hq'⟩
      cases hq'
      exact hembeds
  -- one language for every name, with the groups that it binds
  choose L N hdenotes hbinds hembeds hne using hall
  exact ⟨L, N, fun _ k glob _ => hdenotes k glob, fun _ k glob _ => hbinds k glob,
    fun k q glob hq => hembeds k glob q hq, hne⟩

/-- What the expression of a route matches, whose groups have different names. -/
theorem matches_guards (h : r.Compiled) (hguards : ∀ slots, Slot.Guards r.requirements L N slots) :
    (Slot.groups N 0 (r.slotsAt r.levels.length)).Nodup ∧
      r.matcher.expr.Matches =
        (((Expr.look .start).Matches.seq
          ((Slot.lang L 0 (Matcher.fixedSlots r.required)).seq
            (Slot.nestedLang L (Slot.captures (Matcher.fixedSlots r.required)).length
              (Matcher.levelSlots r.required r.optional r.format?)))).seq
          (Expr.look .stop).Matches) := by
  have hdenotes := Matcher.denotes_ofSegments
    (h.segments ▸ Template.Parts.splitFormat_segments h.shape) h.shape.required h.shape.optional
    h.format (hguards _) (hguards _)
  have hparsed := r.matcher.parsed
  rw [h.source] at hparsed
  rw [slotsAt, ← length_levelSlots, List.take_length]
  exact hdenotes.parse hparsed

/-- A matched path spells the first levels of the route. -/
theorem lang_of_match (h : r.Compiled) (hguards : ∀ slots, Slot.Guards r.requirements L N slots)
    {bound : Groups} (hb : r.matcher.match? path = some bound) :
    ∃ m, Slot.lang L 0 (r.slotsAt m) [] path [] bound := by
  obtain ⟨l, w, r', rfl, hM⟩ := Expr.matches_of_find hb
  rw [(matches_guards h hguards).2, anchored_iff] at hM
  obtain ⟨rfl, rfl, t₁, t₂, g₁, g₂, ht, hg, h₁, h₂⟩ := hM
  obtain ⟨m, -, h₂⟩ := Slot.nestedLang_iff.1 h₂
  refine ⟨m, ?_⟩
  rw [slotsAt, Slot.lang_append, Nat.zero_add]
  exact ⟨t₁, t₂, g₁, g₂, by simpa using ht, hg, by simpa using h₁, by simpa using h₂⟩

/-- A path that spells the first levels of the route is matched. -/
theorem isSome_match_of_lang (h : r.Compiled)
    (hguards : ∀ slots, Slot.Guards r.requirements L N slots) {m : Nat} {bound : Groups}
    (hm : m ≤ r.levels.length) (hM : Slot.lang L 0 (r.slotsAt m) [] path [] bound) :
    (r.matcher.match? path).isSome = true := by
  rw [slotsAt, Slot.lang_append, Nat.zero_add] at hM
  obtain ⟨t₁, t₂, g₁, g₂, rfl, rfl, h₁, h₂⟩ := hM
  have hnested := Slot.nestedLang_iff.2 ⟨m, by rwa [length_levelSlots], h₂⟩
  have hwhole : r.matcher.expr.Matches [] (t₁ ++ t₂) [] (g₂ ++ g₁) := by
    rw [(matches_guards h hguards).2, anchored_iff]
    exact ⟨rfl, rfl, t₁, t₂, g₁, g₂, rfl, rfl, by simpa using h₁, by simpa using hnested⟩
  simpa [Regex.match?] using Expr.isSome_find hwhole

/-! ## The text of a parameter -/

/-- The slots of a path begin those of the longest path. -/
theorem slotsAt_length (r : Route) (m : Nat) :
    ∃ hidden, r.slotsAt r.levels.length = r.slotsAt m ++ hidden := by
  refine ⟨((Matcher.levelSlots r.required r.optional r.format?).drop m).flatten, ?_⟩
  rw [slotsAt, slotsAt, ← length_levelSlots, List.take_length, List.append_assoc,
    ← List.flatten_append, List.take_append_drop]

/-- The slots of a matched path are those of its levels, but for a slash that stands alone. -/
theorem lang_slotsAt (h : r.Compiled) {m : Nat} (hne : r.shown m ≠ []) :
    Slot.lang L 0 (r.slotsAt m) = Slot.lang L 0 ((r.shown m).flatMap Level.slots) := by
  rcases slotsAt_eq h m with ⟨-, heq⟩ | ⟨hnil, -⟩ | ⟨slots, hslots, heq⟩
  · rw [heq]
  · exact absurd hnil hne
  · rw [heq, hslots]
    simp [Slot.lang, Expr.chain_nil, Lang.nil_seq]

/-- The slots of a path have the groups of the levels shown. -/
theorem groups_slotsAt (h : r.Compiled) (m : Nat) :
    Slot.groups N 0 (r.slotsAt m) = Slot.groups N 0 ((r.shown m).flatMap Level.slots) := by
  rcases slotsAt_eq h m with ⟨-, heq⟩ | ⟨hnil, heq⟩ | ⟨slots, hslots, heq⟩
  · rw [heq]
  · rw [heq, hnil]
    rfl
  · rw [heq, hslots]
    rfl

/-- A parameter that is bound is one of the levels that the path spells. -/
theorem mem_shown_of_bound (h : r.Compiled) (hbind : ∀ slots, Slot.Bind L N slots)
    (hnodup : (Slot.groups N 0 (r.slotsAt r.levels.length)).Nodup) {m n : Nat} {bound : Groups}
    (hM : Slot.lang L 0 (r.slotsAt m) [] path [] bound) (hk : r.groups[n]? = some k)
    (hraw : Dict.lookup (Matcher.groupName n) bound = some raw) :
    ((r.shown m).flatMap Level.names)[n]? = some k := by
  rw [h.groups, names_eq h m] at hk
  by_cases hn : n < ((r.shown m).flatMap Level.names).length
  · rwa [List.getElem?_append_left hn] at hk
  · exfalso
    -- the name of the group would stand among those of the levels shown and of the others
    obtain ⟨hidden, hwhole⟩ := slotsAt_length r m
    have hshown : (Slot.captures (r.slotsAt m)).length ≤ n := by
      rw [← List.length_map (f := Prod.fst), ← Slot.names, names_slotsAt h]
      exact Nat.le_of_not_lt hn
    have hlt : n < (Slot.captures (r.slotsAt m)).length + (Slot.captures hidden).length := by
      rw [← List.length_append, ← Slot.captures_append, ← hwhole, ← List.length_map (f := Prod.fst),
        ← Slot.names, names_slotsAt h]
      have hall := names_eq h r.levels.length
      rw [List.drop_length, List.flatMap_nil, List.append_nil] at hall
      rw [← hall, names_eq h m]
      exact (List.getElem?_eq_some_iff.1 hk).1
    rw [hwhole, Slot.groups_append, Nat.zero_add] at hnodup
    have hmem := Slot.binds_lang (hbind _) 0 _ _ _ _ hM _ (Dict.mem_of_lookup hraw)
    exact (List.nodup_append.1 hnodup).2.2 _ hmem _ (Slot.groupName_mem_groups hshown hlt) rfl

/-- A text that is captured stands in the path where the language of its parameter matches it,
between what the other slots of the levels match. -/
theorem slots_of_captures (h : r.Compiled)
    (hguards : ∀ slots, Slot.Guards r.requirements L N slots)
    (hbind : ∀ slots, Slot.Bind L N slots) (hc : r.Captures path k raw) :
    ∃ m a glob b before after n, (r.shown m).flatMap Level.slots = a ++ .capture k glob :: b ∧
      path = before ++ raw ++ after ∧ (∃ g, Slot.lang L 0 a [] before (raw ++ after) g) ∧
      (∃ g, L k glob before raw after g) ∧ ∃ g, Slot.lang L n b (before ++ raw) after [] g := by
  obtain ⟨bound, n, hb, hk, hraw⟩ := hc
  have hnodup := (matches_guards h hguards).1
  obtain ⟨m, hM⟩ := lang_of_match h hguards hb
  have hshown := mem_shown_of_bound h hbind hnodup hM hk hraw
  -- the slots of the levels that the path spells, with different groups
  have hne : r.shown m ≠ [] := by
    intro hnil
    rw [hnil] at hshown
    cases hshown
  rw [lang_slotsAt h hne] at hM
  obtain ⟨hidden, hhidden⟩ := slotsAt_length r m
  rw [hhidden, Slot.groups_append, groups_slotsAt h] at hnodup
  have hnodup := (List.nodup_append.1 hnodup).1
  rw [← Level.names_flatMap_slots] at hshown
  have hn : n < 0 + (Slot.captures ((r.shown m).flatMap Level.slots)).length := by
    have := (List.getElem?_eq_some_iff.1 hshown).1
    rwa [Slot.names, List.length_map, ← Nat.zero_add (Slot.captures _).length] at this
  obtain ⟨a, name, glob, b, before, after, hslots, hcount, hpath, ⟨ga, ha⟩, ⟨gu, hu⟩, gb, hb⟩ :=
    Slot.exists_of_bound hM (hbind _) hnodup (Nat.zero_le n) hn hraw
  obtain rfl : name = k := by
    rw [hslots, Slot.getElem?_names (by omega)] at hshown
    exact Option.some.inj hshown
  exact ⟨m, a, glob, b, before, after, n + 1, hslots, hpath, ⟨ga, by simpa using ha⟩,
    ⟨gu, by simpa using hu⟩, gb, by simpa using hb⟩

/-- A parameter that stands alone has a slash or a dot before it, and one of them or nothing after
it. -/
theorem place_of_captures (h : r.Compiled)
    (hguards : ∀ slots, Slot.Guards r.requirements L N slots)
    (hbind : ∀ slots, Slot.Bind L N slots) (hc : r.Captures path k raw) :
    ∃ before after glob g, path = before ++ raw ++ after ∧ L k glob before raw after g ∧
      (r.StandsAlone k → Look.Apart before.getLast? ∧ Look.Apart after.head?) := by
  obtain ⟨m, a, glob, b, before, after, n, hslots, hpath, ⟨ga, ha⟩, ⟨gu, hu⟩, gb, hb⟩ :=
    slots_of_captures h hguards hbind hc
  refine ⟨before, after, glob, gu, hpath, hu, fun halone => ?_⟩
  -- standing alone, the parameter is all of its level, between two separators or at the end
  obtain ⟨front, l, rest, -, -, rfl, rfl⟩ := Level.exists_of_slots
    (fun l hl pieces heq => halone pieces (heq ▸ segmentOf_mem h hl)) hslots
  constructor
  · rw [Slot.getLast?_of_lang ha]
    exact l.apart_separator
  · cases rest with
    | nil =>
      obtain ⟨rfl, -⟩ := hb
      exact Look.apart_none
    | cons l' rest =>
      rw [List.flatMap_cons, Level.slots_eq, List.cons_append] at hb
      rw [Slot.head?_of_lang hb]
      exact l'.apart_separator

/-- A text that is captured is accepted by the requirement of its parameter, if that does not look
at the words around it, or no word can stand there. -/
theorem Guarded.accepts (h : r.Guarded) (hc : r.Captures path k raw)
    (hq : r.requirements.get? k = some q) (hwords : q.seesWords = false ∨ r.StandsAlone k) :
    q.accepts raw = true := by
  obtain ⟨L, N, hguards, hbind, hembeds, -⟩ := h.exists_langs
  obtain ⟨before, after, glob, g, -, hM, hapart⟩ :=
    place_of_captures h.toCompiled hguards hbind hc
  exact (hembeds k q glob hq).accepts hM (hwords.imp_right hapart)

/-! ## The parameters -/

/-- A parameter has the value of the text that is captured for it. -/
theorem Captures.get? (h : r.Compiled) (hc : r.Captures path k raw) {params : Params}
    (hm : r.match? path = some params) : params.get? k = some (r.capturedValue k raw) := by
  obtain ⟨bound, n, hb, hk, hraw⟩ := hc
  obtain ⟨bound', hb', rfl⟩ := Option.map_eq_some_iff.1 hm
  cases hb.symm.trans hb'
  have hnodup : r.groups.Nodup := h.groups ▸ h.nodup
  rw [Dict.get?_filter, get?_overlayGroups_of_key hnodup hk, Nat.zero_add, hraw, Option.map_some,
    Option.some_or, Option.filter_some, isNil_capturedValue]
  rfl

end Route

end Routing
