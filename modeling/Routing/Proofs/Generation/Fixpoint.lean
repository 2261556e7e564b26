import Routing.Proofs.Generation.Intent
import Routing.Proofs.Generation.Link
import Routing.Proofs.Recognition
import Routing.Proofs.Route.Reading
import Routing.Url

/-!
# Linking to what was recognised

In a table of one route whose defaults are texts, the link to the parameters of a path leads back to
these parameters. It need not be the path itself: what only repeats a default is left out of it, and
comes back as the default.

* `Route.Linkable` — what is asked of the route
* `Route.Recognized` — the parameters of a path
* `Table.recognize_link` — the link to them is recognised as the same parameters
-/

namespace Routing

open Routing.Path Intent

namespace Route

variable [Properties] {r : Route} {m : Nat} {parts : Text → List Text} {q : Params} {k : Text}
  {glob : Bool}

/-! ## The route -/

/-- The defaults are texts that are not empty and do not begin with a slash, nothing is named like
an option that is no parameter, and an action in the path is `index` when it is missing. -/
structure Linkable (r : Route) : Prop where
  settled : r.Settled
  plain : r.Unescaped
  once : r.CapturesOnce
  defaults : ∀ k v, r.defaults.get? k = some v → ∃ s, v = .str s ∧ s ≠ [] ∧ s.head? ≠ some '/'
  keys : ∀ k ∈ r.keys, k ∉ Reserved.keys
  defaultKeys : ∀ k ∈ Reserved.keys, r.defaults.get? k = none
  action : actionKey ∈ r.keys →
    r.defaults.get? actionKey = none ∨ r.defaults.get? actionKey = some (.str indexAction)

omit [Properties] in
/-- Defaults that are texts stay as they are, and a controller brings the action `index`. -/
theorem get?_normalizeDefaults {defaults : Params} {v : Value}
    (hdefaults : ∀ k v, defaults.get? k = some v → ∃ s, v = .str s ∧ s ≠ [] ∧ s.head? ≠ some '/')
    (hv : (normalizeDefaults defaults).get? k = some v) :
    defaults.get? k = some v ∨ k = actionKey ∧ v = .str indexAction := by
  have hmap (k : Text) : (defaults.map fun _ v => defaultValue v).get? k = defaults.get? k := by
    rw [Dict.get?_map]
    cases hd : defaults.get? k with
    | none => rfl
    | some d =>
      obtain ⟨s, rfl, -⟩ := hdefaults k d hd
      rfl
  rw [normalizeDefaults] at hv
  simp only at hv
  split at hv
  · rw [hmap] at hv
    exact .inl hv
  · next controller hcontroller =>
    rw [hmap] at hcontroller
    rw [Dict.get?_insert, Dict.get?_insert, hmap, hmap] at hv
    -- a text is its own path form, so the controller and a declared action stay as they are
    split at hv
    · next hk =>
      subst hk
      cases ha : defaults.get? actionKey with
      | none =>
        rw [ha] at hv
        cases hv
        exact .inr ⟨rfl, rfl⟩
      | some d =>
        obtain ⟨s, rfl, -⟩ := hdefaults actionKey d ha
        rw [ha] at hv
        cases hv
        exact .inl rfl
    · split at hv
      · next hk =>
        subst hk
        obtain ⟨d, hd, hparam⟩ := Option.bind_eq_some_iff.1 hcontroller
        obtain ⟨s, rfl, -⟩ := hdefaults controllerKey d hd
        cases hparam
        cases hv
        exact .inl hd
      · exact .inl hv

/-- What is asked of a route, told of its declaration. -/
theorem linkable_of_compiledBare {d : Declaration} (hd : CompiledBare d r) (hplain : r.Unescaped)
    (honce : r.CapturesOnce)
    (hdefaults : ∀ k v, d.defaults.get? k = some v → ∃ s, v = .str s ∧ s ≠ [] ∧ s.head? ≠ some '/')
    (hkeys : ∀ k ∈ r.keys, k ∉ Reserved.keys)
    (hdefaultKeys : ∀ k ∈ Reserved.keys, d.defaults.get? k = none)
    (haction : actionKey ∈ r.keys →
      r.defaults.get? actionKey = none ∨ r.defaults.get? actionKey = some (.str indexAction)) :
    r.Linkable := by
  -- the template and the glob only drop defaults, so that those left are declared or implied
  have hdefault {k : Text} {v : Value} (hv : r.defaults.get? k = some v) :
      d.defaults.get? k = some v ∨ k = actionKey ∧ v = .str indexAction := by
    obtain ⟨-, c, n, -, hcompile⟩ := hd
    obtain ⟨defaults, -, hread, hdrop, -⟩ := compile_eq_ok hcompile
    obtain ⟨-, -, -, -, -, hkept⟩ := Template.shape_of_read hread
    rw [dropGlobDefault_ok hdrop] at hv
    split at hv
    · cases hv
    · rcases hkept k with hk | ⟨hk, -⟩
      · exact get?_normalizeDefaults hdefaults (hk ▸ hv)
      · rw [hk] at hv
        cases hv
  constructor
  case settled => exact settled_of_compiledBare hd
  case plain => exact hplain
  case once => exact honce
  case keys => exact hkeys
  case action => exact haction
  case defaults =>
    intro k v hv
    rcases hdefault hv with hv | ⟨-, rfl⟩
    · exact hdefaults k v hv
    · exact ⟨_, rfl, by decide, by decide⟩
  case defaultKeys =>
    intro k hk
    by_contra hne
    obtain ⟨v, hv⟩ := Option.ne_none_iff_exists'.1 hne
    rcases hdefault hv with hv | ⟨rfl, -⟩
    · rw [hdefaultKeys k hk] at hv
      cases hv
    · exact absurd hk (by decide)

/-- The value of a parameter that is not in the path. -/
def missing (r : Route) (k : Text) : Option Value :=
  (r.defaults.get? k).or (if k = actionKey then some (.str indexAction) else none)

/-- The parameters of a path that shows the first `m` levels. -/
structure Recognized (r : Route) (m : Nat) (parts : Text → List Text) (q : Params) : Prop where
  le : m ≤ r.levels.length
  restored : ∀ l ∈ r.shown m, ∀ name glob, Slot.capture name glob ∈ l.slots →
    Restored name glob (parts name)
  get? : ∀ k, q.get? k =
    if k ∈ (r.shown m).flatMap Level.names then some (r.valueOf k (parts k)) else r.missing k
  controller : (Params.given? q controllerKey).isSome = true

/-- What recognising a path without encoded slashes gives. -/
theorem recognized_of_match (h : r.Linkable) {s : Text} (hclean : Clean s) {params : Params}
    (hm : r.match? s = some params) (hcontroller : (Params.given? params controllerKey).isSome = true) :
    ∃ m parts, r.Recognized m parts (Recognition.complete params) := by
  obtain ⟨m, hle, parts, hrestored, hget⟩ := read_of_match h.settled hclean hm
  refine ⟨m, parts, hle, hrestored, fun k => ?_, ?_⟩
  · rw [Recognition.get?_complete_eq, hget]
    split
    · rfl
    · rw [missing]
      -- a default is a text, and so is not dropped as nil
      cases hd : r.defaults.get? k with
      | none => rfl
      | some v =>
        obtain ⟨s, rfl, -⟩ := h.defaults k v hd
        rfl
  · rw [Params.given?, Recognition.get?_complete_eq]
    cases hget : params.get? controllerKey with
    | none => rw [Params.given?, hget] at hcontroller; cases hcontroller
    | some v => rw [Params.given?, hget] at hcontroller; exact hcontroller

/-! ## What is asked for -/

/-- The value of some parts has their joined text as its path form. -/
theorem param?_valueOf (r : Route) (k : Text) (texts : List Text) :
    (r.valueOf k texts).param? = some (['/'].intercalate texts) := by
  rw [valueOf]
  split
  · rw [Value.param?, Value.params_eq_filterMap, List.filterMap_map]
    exact congrArg (fun t => some (['/'].intercalate t)) List.filterMap_some
  · rfl

theorem isTruthy_valueOf (r : Route) (k : Text) (texts : List Text) :
    (r.valueOf k texts).isTruthy = true := by
  rw [valueOf]
  split <;> rfl

omit [Properties] in
/-- The parts that were restored are those of the joined text. -/
theorem parts_str {texts : List Text} (h : Restored k glob texts) :
    (Value.str (['/'].intercalate texts)).parts = texts := by
  refine List.splitOn_intercalate '/' (fun t ht => (h.sound t ht).2) ?_
  rintro rfl
  exact h.ne_nil rfl

/-- A recognised value, asked for, has the same parts. -/
theorem parts_asked (r : Route) {texts : List Text} (h : Restored k glob texts) :
    (asked k (r.valueOf k texts)).param? = some (['/'].intercalate texts) ∧
      (asked k (r.valueOf k texts)).parts = texts := by
  have hparam := param?_valueOf r k texts
  -- normalising makes texts of the controller and the action, and their parts stay the same
  by_cases hc : k = controllerKey
  · have hhead : (['/'].intercalate texts).head? ≠ some '/' := by
      intro hhead
      exact (restore_of_fits (h.controller hc)).2.1 (List.mem_of_head? hhead)
    rw [hc] at hparam ⊢
    rw [asked_controller, Value.asText_of_param? hparam, Value.dropSlash_str hhead]
    exact ⟨rfl, parts_str h⟩
  · by_cases ha : k = actionKey
    · rw [ha] at hparam ⊢
      rw [asked_action, Value.asText_of_param? hparam]
      exact ⟨rfl, parts_str h⟩
    · rw [asked_of_ne hc ha]
      refine ⟨hparam, ?_⟩
      rw [valueOf]
      split
      · exact (List.filterMap_map ..).trans List.filterMap_some
      · exact parts_str h

/-- The rendering of the link to some parameters. -/
def renderingOf (r : Route) (q : Params) : Rendering :=
  r.rendering (normalize none ⟨q, .empty⟩).options (normalize none ⟨q, .empty⟩).recalled

theorem value?_renderingOf {v : Value} (h : q.get? k = some v) (hv : v.isTruthy = true) :
    (r.renderingOf q).value? k = some (asked k v) :=
  value?_eq_some (get?_merged h hv) (isTruthy_asked hv k)

/-- What a parameter gets that the path does not give is a text. -/
theorem missing_eq_some (h : r.Linkable) {v : Value} (hv : r.missing k = some v) :
    ∃ s, v = .str s ∧ s ≠ [] ∧ s.head? ≠ some '/' := by
  rw [missing] at hv
  cases hd : r.defaults.get? k with
  | none =>
    rw [hd, Option.none_or] at hv
    split at hv
    · cases hv
      exact ⟨_, rfl, by decide, by decide⟩
    · cases hv
  | some d =>
    rw [hd, Option.some_or] at hv
    exact h.defaults k v (hd.trans hv)

/-- Every recognised parameter counts. -/
theorem Recognized.isTruthy (hr : r.Linkable) (h : r.Recognized m parts q) {v : Value}
    (hv : q.get? k = some v) : v.isTruthy = true := by
  rw [h.get?] at hv
  split at hv
  · cases hv
    exact isTruthy_valueOf ..
  · obtain ⟨s, rfl, -⟩ := missing_eq_some hr hv
    rfl

/-! ## What is rendered -/

/-- What was captured can be rendered. -/
theorem Recognized.captures (hr : r.Linkable) (h : r.Recognized m parts q) :
    ∀ l ∈ r.shown m, ∀ name glob, Slot.capture name glob ∈ l.slots →
      ((r.renderingOf q).capture? name glob).isSome = true := by
  intro l hl name glob hc
  have hrestored := h.restored l hl name glob hc
  have hget : q.get? name = some (r.valueOf name (parts name)) := by
    rw [h.get?, if_pos (Level.mem_flatMap_names.2 ⟨l, hl, glob, hc⟩)]
  have hvalue := value?_renderingOf (r := r) hget (isTruthy_valueOf ..)
  -- what was restored fits the capture that it was read from
  have hadmits : (r.renderingOf q).admits name (['/'].intercalate (parts name)) glob = true := by
    rw [Rendering.admits_iff hr.settled]
    split
    · next hname => exact hrestored.controller hname
    · exact ⟨hrestored.ne_nil, hrestored.inner⟩
  rw [Rendering.capture?_eq_some.2 ⟨_, _, hvalue, (parts_asked r hrestored).1, hadmits, rfl⟩]
  rfl

/-- A parameter that is not captured has its default, or is the action `index`. -/
theorem Recognized.get?_of_not_mem (h : r.Recognized m parts q)
    (hk : k ∉ (r.shown m).flatMap Level.names) : q.get? k = r.missing k := by
  rw [h.get?, if_neg hk]

/-- A parameter that is not recognised is neither controller nor action, and has no default. -/
theorem Recognized.of_get?_none (h : r.Recognized m parts q) (hk : q.get? k = none) :
    k ≠ controllerKey ∧ k ≠ actionKey ∧ r.defaults.get? k = none := by
  refine ⟨?_, ?_⟩
  · rintro rfl
    have := h.controller
    rw [Params.given?, hk] at this
    cases this
  · rw [h.get?, missing] at hk
    split at hk
    · cases hk
    · rw [Option.or_eq_none_iff] at hk
      refine ⟨?_, hk.1⟩
      rintro rfl
      simp at hk

/-- A parameter that was not recognised has no value. -/
theorem Recognized.value?_of_none (h : r.Recognized m parts q) (hk : q.get? k = none) :
    (r.renderingOf q).value? k = none := by
  obtain ⟨hc, ha, hd⟩ := h.of_get?_none hk
  rw [Rendering.value?, Params.given?, Params.given?]
  show (((Dict.overlay _ _).get? k).filter _).or ((r.defaults.get? k).filter _) = none
  rw [Dict.get?_overlay, get?_options_of_ne hc ha, get?_recalled_of_ne ha, hk, hd]
  rfl

theorem names_shown_subset (hr : r.Settled) (hk : k ∈ (r.shown m).flatMap Level.names) :
    k ∈ r.keys := by
  rw [hr.keys, names_eq hr.toCompiled m]
  exact List.mem_append_left _ hk

/-- There is a link to recognised parameters. -/
theorem Recognized.isSome_link? (hr : r.Linkable) (h : r.Recognized m parts q) :
    (r.link? (normalize none ⟨q, .empty⟩).options
      (normalize none ⟨q, .empty⟩).recalled).isSome = true := by
  rw [link?, Option.isSome_map, isSome_render?]
  constructor
  -- a required default is no key, so that it was recognised as itself
  · rw [meetsDefaults, List.all_eq_true]
    rintro ⟨name, d⟩ hd
    rw [Dict.mem_entries_iff, hr.settled.requiredDefaults, Dict.get?_filter,
      Option.filter_eq_some_iff, decide_eq_true_iff] at hd
    obtain ⟨hd, hkey⟩ := hd
    obtain ⟨s, rfl, -, hhead⟩ := hr.defaults name d hd
    have hget := h.get?_of_not_mem (mt (names_shown_subset hr.settled) hkey)
    rw [missing, hd, Option.some_or] at hget
    have hmerged := get?_merged hget rfl
    rw [asked_str hhead] at hmerged
    exact decide_eq_true (by rw [hmerged]; rfl)
  · intro s hs
    have hlevel : Level.component s ∈ r.shown m :=
      List.mem_append_left _ (List.mem_map_of_mem hs)
    exact Rendering.isSome_level?.2 (h.captures hr _ hlevel)

/-- A route that recognises something is significant. -/
theorem Recognized.isSignificant (hr : r.Linkable) (h : r.Recognized m parts q) :
    r.isSignificant = true := by
  rw [Route.isSignificant, Bool.or_eq_true]
  -- a route without keys has its controller as a required default
  cases hkeys : r.keys with
  | cons key keys => exact .inl rfl
  | nil =>
    right
    have hm : controllerKey ∉ (r.shown m).flatMap Level.names := by
      intro hm
      have := names_shown_subset hr.settled hm
      rw [hkeys] at this
      cases this
    have hget := h.get?_of_not_mem hm
    rw [missing, if_neg (by decide), Option.or_none] at hget
    cases hd : r.defaults.get? controllerKey with
    | none =>
      rw [hd] at hget
      exact absurd rfl (h.of_get?_none hget).1
    | some d =>
      have hrequired : r.requiredDefaults.get? controllerKey = some d := by
        rw [hr.settled.requiredDefaults, Dict.get?_filter, hd, Option.filter_some, hkeys]
        rfl
      have hmem := Dict.mem_entries_iff.2 hrequired
      rw [Dict.isEmpty, Bool.not_eq_true', List.isEmpty_eq_false_iff]
      exact List.ne_nil_of_mem hmem

variable {l : Link} {shown used : Nat}

/-- An option that the path does not consume is not captured, or is the action `index`. -/
theorem Recognized.unused (hr : r.Linkable) (h : r.Recognized m parts q)
    (hl : r.Linked (normalize none ⟨q, .empty⟩).options (normalize none ⟨q, .empty⟩).recalled l
      shown used)
    (hk : k ∉ (r.shown used).flatMap Level.names) {v : Value} (hv : q.get? k = some v) :
    k ∉ (r.shown m).flatMap Level.names ∨ asksIndex k v := by
  by_cases hm : k ∈ (r.shown m).flatMap Level.names
  · right
    obtain ⟨level, hlevel, hname⟩ := List.mem_flatMap.1 hm
    have hunused : level ∉ r.shown used := fun h => hk (List.mem_flatMap.2 ⟨level, h, hname⟩)
    obtain ⟨hlt, hdrop⟩ := mem_drop_of_not_shown hlevel hunused
    rw [List.drop_take] at hdrop
    have hdrop := List.mem_of_mem_take hdrop
    -- the level at which rendering stopped was read from the path, so it could have been rendered
    cases hrest : r.levels.drop used with
    | nil =>
      rw [hrest] at hdrop
      cases hdrop
    | cons first rest =>
      have hfirst : first ∈ r.shown m := by
        obtain ⟨k, rfl⟩ := Nat.exists_eq_add_of_lt hlt
        rw [Route.shown, Nat.add_assoc, List.take_add, hrest]
        simp
      have hrendered := Rendering.isSome_level?.2 (h.captures hr first hfirst)
      rcases hl.cut.stop first rest hrest with hnone | hnone
      · rw [renderingOf, hnone] at hrendered
        cases hrendered
      · have habsent := hnone k (List.mem_flatMap.2 ⟨level, hrest ▸ hdrop, hname⟩)
        rw [Dict.contains, get?_options hv (h.isTruthy hr hv)] at habsent
        split at habsent
        · assumption
        · cases habsent
  · exact .inl hm

/-- Nothing is left over of what was recognised. -/
theorem Recognized.extras_eq (hr : r.Linkable) (h : r.Recognized m parts q)
    (hl : r.Linked (normalize none ⟨q, .empty⟩).options (normalize none ⟨q, .empty⟩).recalled l
      shown used) : l.extras = .empty := by
  apply Dict.ext_get?
  intro k
  rw [hl.extras, Dict.get?_empty]
  split
  · rfl
  · next hk =>
    cases hv : q.get? k with
    | none =>
      obtain ⟨hc, ha, -⟩ := h.of_get?_none hv
      rw [get?_options_of_ne hc ha, hv]
      rfl
    | some v =>
      rw [get?_options hv (h.isTruthy hr hv)]
      split
      · rfl
      · next hask =>
        -- what the path does not give is a default, which is not left over, or the action `index`
        have hm := (h.unused hr hl hk hv).resolve_right hask
        rw [h.get?_of_not_mem hm, missing] at hv
        cases hd : r.defaults.get? k with
        | none =>
          rw [hd, Option.none_or] at hv
          split at hv
          · next ha =>
            cases hv
            exact absurd ⟨ha, rfl⟩ hask
          · cases hv
        | some d =>
          obtain ⟨s, rfl, -, hhead⟩ := hr.defaults k d hd
          rw [hd, Option.some_or] at hv
          cases hv
          rw [asked_str hhead]
          simp [Option.filter_some, Value.sameParam]

/-- With a glob there is nothing that may be missing. -/
theorem shown_eq_of_glob (hr : r.Settled) {level : Level} (hlevel : level ∈ r.shown m)
    (hc : Slot.capture k true ∈ level.slots) (n : Nat) : r.shown n = r.shown m := by
  have hmem := segmentOf_mem hr.toCompiled hlevel
  rw [Segment.eq_glob_of_mem_slots (mem_slots_segmentOf.1 hc)] at hmem
  obtain ⟨-, -, hopt, hformat⟩ := required_of_glob hr.toCompiled hmem
  rw [Route.shown, Route.shown, levels, hopt, hformat]
  simp [Matcher.levels]

/-- What was read from the path is rendered in the same parts. -/
theorem parts_renderingOf (h : r.Recognized m parts q)
    (hk : k ∈ (r.shown m).flatMap Level.names) : (r.renderingOf q).parts k = parts k := by
  obtain ⟨level, hlevel, glob, hc⟩ := Level.mem_flatMap_names.1 hk
  have hget : q.get? k = some (r.valueOf k (parts k)) := by rw [h.get?, if_pos hk]
  rw [Rendering.parts, value?_renderingOf hget (isTruthy_valueOf ..)]
  exact (parts_asked r (h.restored level hlevel k glob hc)).2

/-- The path of the link is written. -/
theorem Recognized.written (hr : r.Linkable) (h : r.Recognized m parts q)
    (hl : r.Linked (normalize none ⟨q, .empty⟩).options (normalize none ⟨q, .empty⟩).recalled l
      shown used) :
    ∀ level ∈ r.shown shown, ∀ name glob, Slot.capture name glob ∈ level.slots →
      Written name glob ((r.renderingOf q).parts name) ∧
        (r.renderingOf q).text name = escapedText ((r.renderingOf q).parts name) := by
  intro level hlevel name glob hc
  obtain ⟨t, ht⟩ := Option.isSome_iff_exists.1
    (hl.captures level (shown_subset hl.cut.shown_le hlevel) name glob hc)
  apply Rendering.written_of_capture? hr.settled ht
  intro hglob
  subst hglob
  -- a glob is never missing, so that it is shown in both paths
  have hlevel' : level ∈ r.shown m := shown_eq_of_glob hr.settled hlevel hc m ▸ hlevel
  have hrestored := h.restored level hlevel' name true hc
  show ∀ part ∈ (r.renderingOf q).parts name, _
  rw [parts_renderingOf h (Level.mem_flatMap_names.2 ⟨level, hlevel', true, hc⟩)]
  exact fun part hpart => ⟨(hrestored.sound part hpart).1, hrestored.newline rfl part hpart⟩

/-- A parameter that is in one path and not in the other is no glob. -/
theorem isGlob_eq_false (hr : r.Settled) {n : Nat} (hk : k ∈ (r.shown m).flatMap Level.names)
    (hk' : k ∉ (r.shown n).flatMap Level.names) : r.isGlob k = false := by
  obtain ⟨level, hlevel, glob, hc⟩ := Level.mem_flatMap_names.1 hk
  rw [isGlob_eq hr.toCompiled hlevel hc]
  cases glob with
  | false => rfl
  | true => exact absurd (shown_eq_of_glob hr hlevel hc n ▸ hk) hk'

/-- A parameter that is shown has the value that was recognised. -/
theorem Recognized.get?_shown (hr : r.Linkable) (h : r.Recognized m parts q)
    (hl : r.Linked (normalize none ⟨q, .empty⟩).options (normalize none ⟨q, .empty⟩).recalled l
      shown used) (hk : k ∈ (r.shown shown).flatMap Level.names) :
    q.get? k = some (r.valueOf k ((r.renderingOf q).parts k)) := by
  by_cases hm : k ∈ (r.shown m).flatMap Level.names
  · rw [parts_renderingOf h hm, h.get?, if_pos hm]
  -- it is shown now and was not before, so that its default is spelled out
  · obtain ⟨level, hlevel, glob, hc⟩ := Level.mem_flatMap_names.1 hk
    obtain ⟨t, ht⟩ := Option.isSome_iff_exists.1
      (hl.captures level (shown_subset hl.cut.shown_le hlevel) k glob hc)
    obtain ⟨w, -, hw, -⟩ := Rendering.capture?_eq_some.1 ht
    cases hv : q.get? k with
    | none => cases (h.value?_of_none hv).symm.trans hw
    | some v =>
      obtain ⟨s, rfl, -, hhead⟩ := missing_eq_some hr ((h.get?_of_not_mem hm).symm.trans hv)
      have hvalue := value?_renderingOf (r := r) hv rfl
      rw [asked_str hhead] at hvalue
      rw [valueOf, isGlob_eq_false hr.settled hk hm, if_neg Bool.false_ne_true, Rendering.parts, hvalue]
      have hs : ['/'].intercalate (Value.str s).parts = s := Value.intercalate_parts rfl
      exact congrArg (fun t => some (Value.str t)) hs.symm

/-- A parameter that is not shown has the value that is meant when it is missing. -/
theorem Recognized.get?_not_shown (hr : r.Linkable) (h : r.Recognized m parts q)
    (hl : r.Linked (normalize none ⟨q, .empty⟩).options (normalize none ⟨q, .empty⟩).recalled l
      shown used) (hk : k ∉ (r.shown shown).flatMap Level.names) : q.get? k = r.missing k := by
  by_cases hm : k ∈ (r.shown m).flatMap Level.names
  · have hv : q.get? k = some (r.valueOf k (parts k)) := by rw [h.get?, if_pos hm]
    have hvalue : r.valueOf k (parts k) = .str (['/'].intercalate (parts k)) := by
      rw [valueOf, isGlob_eq_false hr.settled hm hk, if_neg Bool.false_ne_true]
    -- it was consumed as a repeated default, or recalled as the action `index`
    by_cases hused : k ∈ (r.shown used).flatMap Level.names
    · obtain ⟨raw, hraw, -, hshown⟩ :=
        hl.consumed (get?_merged hv (isTruthy_valueOf ..)) (isTruthy_asked (isTruthy_valueOf ..) k)
          hused
      have hdefault := hshown.resolve_left hk
      obtain ⟨level, hlevel, glob, hc⟩ := Level.mem_flatMap_names.1 hm
      rw [(parts_asked r (h.restored level hlevel k glob hc)).1] at hraw
      cases hd : r.defaults.get? k with
      | none => rw [hd] at hdefault; cases hdefault
      | some d =>
        obtain ⟨s, rfl, -⟩ := hr.defaults k d hd
        rw [hd] at hdefault
        rw [hv, hvalue, missing, hd, Option.some.inj hraw, ← Option.some.inj hdefault]
        rfl
    · have hask := (h.unused hr hl hused hv).resolve_left (not_not.2 hm)
      obtain ⟨rfl, hindex⟩ := hask
      rw [param?_valueOf] at hindex
      rw [hv, hvalue, Option.some.inj hindex, missing]
      rcases hr.action (names_shown_subset hr.settled hm) with hd | hd
      · rw [hd]
        rfl
      · rw [hd]
        rfl
  · exact h.get?_of_not_mem hm

/-- The path of the link is recognised as the same parameters. -/
theorem Recognized.match_link (hr : r.Linkable) (h : r.Recognized m parts q)
    (hl : r.Linked (normalize none ⟨q, .empty⟩).options (normalize none ⟨q, .empty⟩).recalled l
      shown used) :
    '?' ∉ l.path ∧ ∃ params, r.match? (decode (normalize l.path)) = some params ∧
      Recognition.complete params = q := by
  have hwritten := h.written hr hl
  have hpath : l.path = Level.path (escapedTexts (r.renderingOf q).parts) (r.shown shown) :=
    hl.path.trans (path_congr fun level hlevel name glob hc => (hwritten level hlevel name glob hc).2)
  have hw : ∀ level ∈ r.shown shown, WrittenAt (r.renderingOf q).parts level :=
    fun level hlevel name glob hc => (hwritten level hlevel name glob hc).1
  obtain ⟨params, hparams, hget⟩ := match_of_written hr.settled hr.plain hr.once
    (hl.cut.shown_le.trans hl.cut.used_le) hw
  rw [hpath]
  refine ⟨?_, params, hparams, Dict.ext_get? fun k => ?_⟩
  · rw [Level.path]
    split
    · decide
    · exact not_mem_rooted (rooted_shown hr.settled hr.plain hw)
  · rw [Recognition.get?_complete_eq, hget]
    by_cases hk : k ∈ (r.shown shown).flatMap Level.names
    -- what is shown is read back, and what is not shown is filled in as before
    · rw [if_pos hk, h.get?_shown hr hl hk]
      rfl
    · rw [if_neg hk, h.get?_not_shown hr hl hk, missing]
      cases hd : r.defaults.get? k with
      | none => rfl
      | some d =>
        obtain ⟨s, rfl, -⟩ := hr.defaults k d hd
        rfl

end Route

namespace Table

section

variable [Properties] {t : Table} {r : Route} {p : Text} {q : Params}

/-- What a table of one route recognises. -/
theorem recognizePath_eq_ok (ht : t.routes = [r]) : t.recognizePath p = .ok q ↔
    ∃ params, r.match? (decode (normalize p)) = some params ∧
      (Params.given? params controllerKey).isSome = true ∧ Recognition.complete params = q := by
  have hadmits : r.admitsHost none = true := by
    unfold Route.admitsHost
    cases r.host <;> rfl
  have haccepted : Request.accepted? ⟨p, none, none⟩ r =
      ((r.match? (decode (normalize p))).filter fun params =>
        (Params.given? params controllerKey).isSome).map Recognition.complete := by
    have haccepts : r.accepts none = true := rfl
    rw [Request.accepted?, if_pos haccepts, Route.candidate?, if_pos hadmits]
    rfl
  rw [recognizePath, recognize_eq_findSome, ht, List.findSome?_singleton, haccepted]
  simp only [Option.map_eq_some_iff, Option.filter_eq_some_iff, and_assoc]

/-- Without reserved options a URL is a path and a query. -/
theorem urlFor_eq (hq : ∀ k ∈ Reserved.keys, q.get? k = none) : t.urlFor q .empty = (do
    let l ← t.generateAny q .empty
    return l.path ++ Url.query l.extras) := by
  have hgiven (k : Text) (hk : k ∈ Reserved.keys) : Params.given? q k = none := by
    rw [Params.given?, hq k hk]
    rfl
  have hparam (k : Text) (hk : k ∈ Reserved.keys) : Params.givenParam? q k = none :=
    Reserved.givenParam?_eq_none hq hk
  -- no reserved key is set, so that nothing stands before the path or after the query
  have horigin : Url.origin q = .ok [] := by
    rw [Url.origin, hparam _ (by decide), hq Reserved.onlyPath (by decide)]
    rfl
  rw [urlFor, horigin, generate_eq_generateAny hq]
  cases t.generateAny q .empty with
  | error e => rfl
  | ok l =>
    show Except.ok ([] ++ Url.script q ++ Url.withSlash q l.path ++ Url.query l.extras ++
      Url.anchor q) = .ok (l.path ++ Url.query l.extras)
    rw [Url.script, Url.withSlash, Url.anchor, hparam _ (by decide), hparam _ (by decide),
      hgiven _ (by decide)]
    simp

/-- The link to recognised parameters, and what it is recognised as. -/
theorem urlFor_recognized (hr : r.Linkable) (ht : t.routes = [r]) {m : Nat}
    {parts : Text → List Text} (h : r.Recognized m parts q) :
    ∃ u, t.urlFor q .empty = .ok u ∧ '?' ∉ u ∧ t.recognizePath u = .ok q := by
  obtain ⟨l, hl⟩ := Option.isSome_iff_exists.1 (h.isSome_link? hr)
  obtain ⟨shown, used, hlinked⟩ := Route.linked_of_link? hl
  obtain ⟨hquery, params, hparams, rfl⟩ := h.match_link hr hlinked
  -- a reserved key is neither captured nor a default
  have hreserved : ∀ k ∈ Reserved.keys, (Recognition.complete params).get? k = none := by
    intro k hk
    have hshown : k ∉ (r.shown m).flatMap Level.names :=
      mt (Route.names_shown_subset hr.settled) fun hmem => hr.keys k hmem hk
    have hne : k ≠ actionKey := by
      rintro rfl
      exact absurd hk (by decide)
    rw [h.get?_of_not_mem hshown, Route.missing, hr.defaultKeys k hk, if_neg hne]
    rfl
  refine ⟨l.path, ?_, hquery, (recognizePath_eq_ok ht).2 ⟨params, hparams, ?_, rfl⟩⟩
  · rw [urlFor_eq hreserved, generateAny, ht]
    simp only [firstLink?]
    rw [if_pos (h.isSignificant hr), hl]
    show Except.ok (l.path ++ Url.query l.extras) = .ok l.path
    rw [h.extras_eq hr hlinked]
    have hempty : Url.query .empty = [] := by
      rw [Url.query, Query.ofParams, Query.sorted]
      simp [Dict.empty]
    rw [hempty, List.append_nil]
  · have hcontroller := h.controller
    rw [Params.given?, Recognition.get?_complete_eq] at hcontroller
    rw [Params.given?]
    cases hget : params.get? controllerKey with
    | none => rw [hget] at hcontroller; cases hcontroller
    | some v => rw [hget] at hcontroller; exact hcontroller

/-- The link to the parameters of a path is recognised as the same parameters, and linking to these
gives the same link. -/
theorem recognize_link {d : Declaration} (hd : Route.CompiledBare d r) (ht : t.routes = [r])
    (hplain : r.Unescaped) (honce : r.CapturesOnce)
    (hdefaults : ∀ k v, d.defaults.get? k = some v → ∃ s, v = .str s ∧ s ≠ [] ∧ s.head? ≠ some '/')
    (hkeys : ∀ k ∈ r.keys, k ∉ Reserved.keys)
    (hdefaultKeys : ∀ k ∈ Reserved.keys, d.defaults.get? k = none)
    (haction : actionKey ∈ r.keys →
      r.defaults.get? actionKey = none ∨ r.defaults.get? actionKey = some (.str indexAction))
    (hp : ∀ part ∈ components (beforeQuery p), '/' ∉ Percent.decode part)
    (hq : t.recognizePath p = .ok q) :
    ∃ u, t.urlFor q .empty = .ok u ∧ '?' ∉ u ∧
      ∃ q', t.recognizePath u = .ok q' ∧ q' = q ∧ t.urlFor q' .empty = .ok u := by
  have hr : r.Linkable :=
    Route.linkable_of_compiledBare hd hplain honce hdefaults hkeys hdefaultKeys haction
  obtain ⟨params, hparams, hcontroller, rfl⟩ := (recognizePath_eq_ok ht).1 hq
  obtain ⟨m, parts, h⟩ := Route.recognized_of_match hr (clean_decode hp) hparams hcontroller
  -- the link of what was recognised is recognised as the same, so that it links to itself
  obtain ⟨u, hu, hquery, hback⟩ := urlFor_recognized hr ht h
  exact ⟨u, hu, hquery, _, hback, rfl, hu⟩

end

/-- Pages of a section, with one that is shown unless another is named. -/
def pagesDeclaration : Declaration :=
  { Declaration.blank with
    path := "pages/:section/:page".toList
    defaults := .ofList [(controllerKey, .str "pages".toList), ("page".toList, .str "start".toList)] }

def pagesRoute : Route := (Route.bare? pagesDeclaration).get (by decide +kernel)

/-- The default page is left out of the link, and comes back. -/
theorem recognize_link_pages :
    let t := empty.append pagesRoute
    let q := .ofList [(controllerKey, .str "pages".toList), (actionKey, .str indexAction),
      ("section".toList, .str "50%".toList), ("page".toList, .str "start".toList)]
    t.recognizePath "/pages/50%25/start/".toList = .ok q ∧
      ∃ u, t.urlFor q .empty = .ok u ∧ '?' ∉ u ∧
        ∃ q', t.recognizePath u = .ok q' ∧ q' = q ∧ t.urlFor q' .empty = .ok u := by
  intro t q
  have hq : t.recognizePath "/pages/50%25/start/".toList = .ok q := by decide +kernel
  have hbare : Route.CompiledBare pagesDeclaration pagesRoute :=
    Route.compiledBare_of_bare? rfl (Option.some_get _).symm
  have hsegments : pagesRoute.segments = [.static "pages".toList,
      .capture "section".toList false, .capture "page".toList true] := by decide +kernel
  have hentries : pagesDeclaration.defaults.entries = [(controllerKey, .str "pages".toList),
      ("page".toList, .str "start".toList)] := by decide +kernel
  refine ⟨hq, recognize_link hbare rfl ⟨by decide +kernel, by decide +kernel⟩ ?_ ?_
    (by decide +kernel) (by decide +kernel) (by decide +kernel) (by decide +kernel) hq⟩
  · intro pieces hp
    simp [hsegments] at hp
  · intro k v hv
    rw [← Dict.mem_entries_iff, hentries] at hv
    rcases List.mem_cons.1 hv with hv | hv
    · cases hv
      exact ⟨_, rfl, by decide, by decide⟩
    · cases List.mem_singleton.1 hv
      exact ⟨_, rfl, by decide, by decide⟩

end Table

end Routing
