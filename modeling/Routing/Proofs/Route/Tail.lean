import Routing.Proofs.Generation.Link
import Routing.Proofs.Route.Bare

/-!
# Paths that end in an optional part

A path shows the required components and some levels of the optional tail. The levels are decided
from the inside out while the options are being consumed; seen from the outside, the last level
shown never repeats a default, the levels shown have consumed their parameters, and the others only
such as count for nothing.

* `Rendering.Meets` — a value that may stand for a capture
* `Route.Renders` — the path that shows the first levels, and the options left over
* `Route.renderInPlace` — rendering that consumes the options where they are kept
* `Route.renders_of_render?` — what every path shows, and that nothing is consumed without a path
-/

namespace Routing

/-- The value of a parameter may stand for a capture: its path form meets the requirement, or, when
there is none, is not empty and, but for a glob, has neither a slash nor a dot. -/
def Rendering.Meets [Properties] (x : Rendering) (l : Level) (name : Text) : Prop :=
  ∃ v raw, x.value? name = some v ∧ v.param? = some raw ∧
    (∀ q, x.route.requirements.get? name = some q → q.accepts raw = true) ∧
    (x.route.requirements.get? name = none →
      raw ≠ [] ∧ (l = .component (.glob name) ∨ '/' ∉ raw ∧ '.' ∉ raw))

namespace Route

section

variable [Properties] {r : Route} {options recalled : Params}

/-- The path shows the required components and the first `m` levels of the tail; `pending` are the
options that it leaves over. -/
structure Renders (r : Route) (options recalled : Params) (m : Nat) (path : Text)
    (pending : Params) : Prop where
  le : m ≤ r.levels.length
  /-- What is shown is rendered, each level after its separator. -/
  rendered : ∀ l ∈ r.shown m, ((r.rendering options recalled).level? l).isSome = true
  path_eq : path = if (r.shown m).isEmpty then ['/'] else
    (r.shown m).flatMap fun l => l.separator :: ((r.rendering options recalled).level? l).getD []
  meets : ∀ l ∈ r.shown m, ∀ name ∈ l.names, (r.rendering options recalled).Meets l name
  /-- The last level shown is a capture that has no default or another value. -/
  last : ∀ n, m = n + 1 → ∃ l name, r.levels[n]? = some l ∧ l.names = [name] ∧
    ∀ d, r.defaults.get? name = some d →
      Value.paramOf? ((r.rendering options recalled).value? name) ≠ d.param?
  consumed : ∀ name ∈ (r.shown m).flatMap Level.names, pending.get? name = none
  /-- Of the levels not shown only values that count for nothing are consumed. -/
  later : ∀ name ∈ (r.levels.drop m).flatMap Level.names, ∀ v, options.get? name = some v →
    pending.get? name = none → v.isTruthy = false ∨
      ∃ d, r.defaults.get? name = some d ∧ v.param? = d.param?
  kept : ∀ name v, pending.get? name = some v → options.get? name = some v

/-! ## What is shown -/

/-- A level of the tail has one parameter. -/
theorem names_of_mem_levels (h : r.Compiled) {l : Level} (hl : l ∈ r.levels) :
    ∃ name, l.names = [name] := by
  rw [levels, Matcher.levels, List.mem_append, List.mem_map, List.mem_map] at hl
  rcases hl with ⟨s, hs, rfl⟩ | ⟨name, -, rfl⟩
  · obtain ⟨name, rfl⟩ := h.shape.optional s hs
    exact ⟨name, rfl⟩
  · exact ⟨name, rfl⟩

omit [Properties] in
/-- A level with a glob among its slots is that glob. -/
theorem eq_glob_of_slot {l : Level} {name : Text} (h : Slot.capture name true ∈ l.slots) :
    l = .component (.glob name) := by
  cases l with
  | format => simp [Level.slots] at h
  | component s =>
    cases s with
    | static | capture | format => simp [Level.slots, Segment.slots] at h
    | glob => simpa [Level.slots, Segment.slots, eq_comm] using h
    | compound pieces =>
      obtain ⟨p, -, hp⟩ := List.mem_map.1 (by simpa [Level.slots, Segment.slots] using h)
      cases p <;> cases hp

/-- The value of a capture that is rendered may stand for it. -/
theorem meets_of_capture? {x : Rendering} {l : Level} {name : Text} {glob : Bool}
    (hl : Slot.capture name glob ∈ l.slots) (h : (x.capture? name glob).isSome = true) :
    x.Meets l name := by
  obtain ⟨t, ht⟩ := Option.isSome_iff_exists.1 h
  obtain ⟨v, raw, hv, hraw, hadmits, -⟩ := Rendering.capture?_eq_some.1 ht
  rw [Rendering.admits] at hadmits
  refine ⟨v, raw, hv, hraw, fun q hq => ?_, fun hnone => ?_⟩
  · rw [hq] at hadmits
    exact hadmits
  · rw [hnone, Bool.and_eq_true, Bool.or_eq_true] at hadmits
    obtain ⟨hne, hchars⟩ := hadmits
    refine ⟨by simpa using hne, ?_⟩
    -- for a glob nothing more is asked, and any other capture has no separator in it
    rcases hchars with rfl | hchars
    · exact .inl (eq_glob_of_slot hl)
    · right
      constructor <;> intro hmem <;> simpa using List.all_eq_true.1 hchars _ hmem

/-- The path of levels that are rendered. -/
theorem path_of_rendered {x : Rendering} {shown : List Level}
    (h : ∀ l ∈ shown, (x.level? l).isSome = true) :
    Level.path x.text shown = if shown.isEmpty then ['/'] else
      shown.flatMap fun l => l.separator :: (x.level? l).getD [] := by
  rw [Level.path]
  congr 1
  apply List.flatMap_congr
  intro l hl
  obtain ⟨t, ht⟩ := Option.isSome_iff_exists.1 (h l hl)
  rw [ht, Option.getD_some, Rendering.level?_eq_some ht]

/-- A parameter of a level that is not shown is none of those shown. -/
theorem not_mem_shown (h : r.Compiled) {m : Nat} {name : Text}
    (hname : name ∈ (r.levels.drop m).flatMap Level.names) :
    name ∉ (r.shown m).flatMap Level.names := by
  intro hshown
  have hnodup := h.nodup
  rw [names_eq h m] at hnodup
  exact (List.nodup_append.1 hnodup).2.2 name hshown name hname rfl

/-- A value that counts as given and is consumed by a level which is not shown repeats the
default. -/
theorem param?_of_repeated {l : Level} {name : Text} {v : Value}
    (hl : (r.rendering options recalled).isDefault l = true) (hname : name ∈ l.names)
    (hv : options.get? name = some v) (htruthy : v.isTruthy = true) :
    ∃ d, r.defaults.get? name = some d ∧ v.param? = d.param? := by
  obtain ⟨d, hd, heq⟩ := Rendering.default_of_isDefault hl hname
  have hmerged : (recalled.overlay options).get? name = some v := by
    rw [Dict.get?_overlay, hv]
    rfl
  rw [value?_eq_some hmerged htruthy] at heq
  exact ⟨d, hd, heq⟩

/-- A path that is rendered meets the specification of rendering. -/
theorem renders_of_eq_some (hr : r.Compiled) {path : Text} {pending : Params}
    (h : r.render? options recalled = some (path, pending)) :
    ∃ m, r.Renders options recalled m path pending := by
  obtain ⟨m, used, hcut, hpath, hpending⟩ := render?_eq_some h
  -- the cut gives the number of levels shown, and each field is read off it
  have hcaptures := captures_of_render? h hcut
  have hsubset := shown_subset (r := r) hcut.shown_le
  have hrendered : ∀ l ∈ r.shown m, ((r.rendering options recalled).level? l).isSome = true :=
    fun l hl => Rendering.isSome_level?.2 (hcaptures l (hsubset hl))
  refine ⟨m, hcut.shown_le.trans hcut.used_le, hrendered, ?_, ?_, ?_, ?_, ?_, ?_⟩
  · rw [hpath]
    exact path_of_rendered hrendered
  · intro l hl name hname
    obtain ⟨glob, hglob⟩ := Level.mem_names.1 hname
    exact meets_of_capture? hglob (hcaptures l (hsubset hl) name glob hglob)
  · intro n hn
    obtain ⟨l, hl, hdefault⟩ := hcut.last n hn
    obtain ⟨name, hname⟩ := names_of_mem_levels hr (List.mem_of_getElem? hl)
    refine ⟨l, name, hl, hname, fun d hd heq => ?_⟩
    have hd' : (r.rendering options recalled).route.defaults.get? name = some d := hd
    have : (r.rendering options recalled).isDefault l = true := by
      rw [Rendering.isDefault, hname, List.all_cons, List.all_nil, Bool.and_true, hd']
      simpa using heq
    rw [show (r.rendering options recalled).isDefault l = false from hdefault] at this
    cases this
  · intro name hname
    obtain ⟨l, hl, hname⟩ := List.mem_flatMap.1 hname
    rw [hpending, if_pos (List.mem_flatMap.2 ⟨l, hsubset hl, hname⟩)]
  · intro name hlater v hv hnone
    rw [hpending] at hnone
    split at hnone
    · next hused =>
      -- consumed by a level that is rendered and not shown, which repeats its defaults
      obtain ⟨l, hl, hname⟩ := List.mem_flatMap.1 hused
      have hhidden : l ∉ r.shown m := fun hshown =>
        not_mem_shown hr hlater (List.mem_flatMap.2 ⟨l, hshown, hname⟩)
      have hrepeats := hcut.repeated l (mem_drop_of_not_shown hl hhidden).2
      cases htruthy : v.isTruthy with
      | false => exact .inl rfl
      | true => exact .inr (param?_of_repeated hrepeats hname hv htruthy)
    · -- dropped at the end, with the options that repeat a default
      rw [hv, Option.filter_some] at hnone
      right
      cases hd : r.defaults.get? name with
      | none => simp [hd] at hnone
      | some d =>
        have hsame : d.sameParam v = true := by simpa [hd] using hnone
        exact ⟨d, rfl, (decide_eq_true_iff.1 hsame).symm⟩
  · intro name v hv
    rw [hpending] at hv
    split at hv
    · cases hv
    · exact (Option.filter_eq_some_iff.1 hv).1

/-! ## Rendering in place -/

/-- Renders a route and consumes the options where they are kept. -/
def renderInPlace (r : Route) (recalled : Params) : StateM Params (Option Text) := do
  let options ← get
  let x := r.rendering options recalled
  if !r.meetsDefaults x.merged then return none
  else match x.required? r.required with
    | none => return none
    | some start =>
      let (deeper, pending) := x.tail options r.levels
      set (r.dropDefaults (Rendering.without pending (segmentNames r.required)))
      let path := start ++ deeper.getD []
      return some (if path.isEmpty then ['/'] else path)

/-- Rendering in place leaves the options that rendering hands back, and all of them when it fails.
-/
theorem run_renderInPlace (r : Route) (options recalled : Params) :
    (r.renderInPlace recalled).run options =
      match r.render? options recalled with
      | some (path, pending) => (some path, pending)
      | none => (none, options) := by
  let x := r.rendering options recalled
  unfold renderInPlace render?
  simp only [StateT.run_bind, StateT.run_get, pure_bind]
  show (if !r.meetsDefaults x.merged then (pure none : StateM Params (Option Text))
      else match x.required? r.required with
        | none => _
        | some start => _).run options =
    match (if !r.meetsDefaults x.merged then none else (x.required? r.required).bind _) with
      | some (path, pending) => (some path, pending)
      | none => (none, options)
  split
  · rfl
  · cases x.required? r.required with
    | none => rfl
    | some start => rfl

/-! ## Every path -/

/-- A path shows the required components and the first levels of the tail; it never ends in a level
that repeats its default, and consumes no option of a level further in that counts for something.
Without a path nothing is consumed. -/
theorem renders_of_render? {d : Declaration} {c : Requirement} (h : compile d c = .ok r)
    (options recalled : Params) :
    (∀ path pending, r.render? options recalled = some (path, pending) →
      (∃ m, r.Renders options recalled m path pending) ∧
        (r.renderInPlace recalled).run options = (some path, pending)) ∧
      (r.render? options recalled = none →
        (r.renderInPlace recalled).run options = (none, options)) := by
  refine ⟨fun path pending hrender => ?_, fun hnone => ?_⟩
  · refine ⟨renders_of_eq_some (compiled_of_compile h) hrender, ?_⟩
    rw [run_renderInPlace, hrender]
  · rw [run_renderInPlace, hnone]

end

/-- Numbered pages, of which the first is meant when there is no number. -/
def numberedDeclaration : Declaration :=
  { Declaration.blank with
    path := "page/:number.:format".toList
    defaults := .ofList [(controllerKey, .str "content".toList), ("number".toList, .int 1)] }

def numberedRoute : Route := (bare? numberedDeclaration).get (by decide +kernel)

/-- The first page in a format. -/
def numberedOptions : Params :=
  .ofList [(controllerKey, .str "content".toList), (actionKey, .str "index".toList),
    ("number".toList, .str "1".toList), ("format".toList, .str "xml".toList)]

/-- A default is shown when the format after it is. -/
theorem renders_of_render?_numbered :
    numberedRoute.render? numberedOptions .empty = some ("/page/1.xml".toList, .empty) ∧
      ∃ m, numberedRoute.Renders numberedOptions .empty m "/page/1.xml".toList .empty := by
  have hbare : CompiledBare numberedDeclaration numberedRoute :=
    compiledBare_of_bare? rfl (Option.some_get _).symm
  have hrender : numberedRoute.render? numberedOptions .empty =
      some ("/page/1.xml".toList, .empty) := by decide +kernel
  obtain ⟨-, c, n, -, hcompile⟩ := hbare
  exact ⟨hrender, ((renders_of_render? hcompile numberedOptions .empty).1 _ _ hrender).1⟩

end Route

end Routing
