import Routing.Proofs.Steps
import Routing.Proofs.Template.Assembly
import Routing.Proofs.Template.Shape
import Routing.Route

/-!
# Compiled routes

What compiling a declaration settles, whatever its requirements: the requirements are compiled under
their names, the template has the shape of one that was read, and a glob has no default.

* `Dict.get?_mapExcept` — a dictionary whose values are replaced, or refused
* `Route.compile_eq_ok` — the steps of a compilation that succeeds
* `Route.get?_compileRequirements` — the requirement of a parameter
* `Route.normalizeDefaults_cases` — the defaults that a template is read with
* `Route.required`, `Route.levels` — the parts of a template
* `Route.Compiled`, `Route.compiled_of_compile` — what compiling settles
-/

namespace Routing

/-! ## Requirements -/

namespace Dict

variable {α β : Type} {ε : Type} {f : Text → α → Except ε β}

/-- Entries in order are replaced one by one. -/
theorem get?_foldlM {l : List (Text × α)} (hl : l.Pairwise fun a b => a.1 < b.1) {e e' : Dict β}
    (h : l.foldlM (fun e (k, v) => return e.insert k (← f k v)) e = .ok e') (k : Text) :
    (lookup k l = none → e'.get? k = e.get? k) ∧
      ∀ v, lookup k l = some v → ∃ w, f k v = .ok w ∧ e'.get? k = some w := by
  induction l generalizing e with
  | nil =>
    cases h
    exact ⟨fun _ => rfl, fun v hv => by cases hv⟩
  | cons entry rest ih =>
    obtain ⟨k', v'⟩ := entry
    obtain ⟨hhead, htail⟩ := List.pairwise_cons.1 hl
    rw [List.foldlM_cons] at h
    obtain ⟨_, hinsert, h⟩ := bind_eq_ok.1 h
    obtain ⟨w, hw, hinsert⟩ := bind_eq_ok.1 hinsert
    cases hinsert
    obtain ⟨hnone, hsome⟩ := ih htail h
    rw [lookup]
    by_cases hk : k' = k
    · subst hk
      -- the keys ascend, so that what is inserted for this one is not overwritten later
      have habsent : lookup k' rest = none := lookup_eq_none fun e he => (lt_ne (hhead e he)).symm
      have hget := hnone habsent
      rw [get?_insert, if_pos rfl] at hget
      rw [if_pos rfl]
      refine ⟨by simp, ?_⟩
      intro v hv
      cases hv
      exact ⟨w, hw, hget⟩
    · rw [if_neg hk]
      rw [get?_insert, if_neg hk] at hnone
      exact ⟨hnone, hsome⟩

/-- Each entry of the dictionary that is made comes from the entry under the same key. -/
theorem get?_mapExcept {d : Dict α} {e : Dict β} (h : d.mapExcept f = .ok e) (k : Text) :
    (d.get? k = none → e.get? k = none) ∧
      ∀ v, d.get? k = some v → ∃ w, f k v = .ok w ∧ e.get? k = some w :=
  get?_foldlM d.ordered h k

end Dict

variable [Properties]

namespace Route

/-- A parameter has the requirement that is declared for it; the controller may have another one. -/
theorem get?_compileRequirements {sources : Dict Requirement.Source} {c : Requirement}
    {requirements : Dict Requirement} (h : compileRequirements sources c = .ok requirements)
    (k : Text) :
    (sources.get? k = none → requirements.get? k = if k = controllerKey then some c else none) ∧
      ∀ source, sources.get? k = some source →
        ∃ q, Requirement.compile source = .ok q ∧ requirements.get? k = some q := by
  obtain ⟨compiled, hcompiled, h⟩ := bind_eq_ok.1 h
  obtain ⟨hnone, hsome⟩ := Dict.get?_mapExcept hcompiled k
  -- the requirement on controllers is added to the declared ones, and gives way to a declared one
  have hget : requirements.get? k = (compiled.get? k).or (if k = controllerKey then some c else none) := by
    cases h
    by_cases hk : k = controllerKey
    · subst hk
      rw [if_pos rfl, Dict.contains]
      cases hc : compiled.get? controllerKey with
      | some q => simp [hc]
      | none => simp
    · rw [if_neg hk]
      split
      · simp
      · simp [Dict.get?_insert, Ne.symm hk]
  rw [hget]
  constructor
  · intro hk
    rw [hnone hk, Option.none_or]
  · intro source hk
    obtain ⟨q, hq, hq'⟩ := hsome source hk
    exact ⟨q, mapError_eq_ok.1 hq, by rw [hq', Option.some_or]⟩

/-! ## Defaults -/

omit [Properties] in
theorem param?_defaultValue (v : Value) : (defaultValue v).param? = v.param? := by
  cases v <;> rfl

omit [Properties] in
theorem defaultValue_ne_int (v : Value) (i : Int) : defaultValue v ≠ .int i := by
  cases v <;> nofun

omit [Properties] in
/-- Without a path form of the controller, the defaults are the declared ones value by value; with
one, the controller and the action are texts. -/
theorem normalizeDefaults_cases (defaults : Params) :
    (Value.paramOf? (defaults.get? controllerKey) = none ∧
        ∀ k, (normalizeDefaults defaults).get? k = (defaults.get? k).map defaultValue) ∨
      (∃ c, (normalizeDefaults defaults).get? controllerKey = some (.str c)) ∧
        (∃ a, (normalizeDefaults defaults).get? actionKey = some (.str a)) ∧
        ∀ k, k ≠ controllerKey → k ≠ actionKey →
          (normalizeDefaults defaults).get? k = (defaults.get? k).map defaultValue := by
  have hmap (k : Text) :
      (defaults.map fun _ v => defaultValue v).get? k = (defaults.get? k).map defaultValue :=
    Dict.get?_map ..
  -- the two cases of the definition: without a controller the defaults are normalised one by one
  have hparam : Value.paramOf? ((defaults.map fun _ v => defaultValue v).get? controllerKey) =
      Value.paramOf? (defaults.get? controllerKey) := by
    rw [hmap]
    cases defaults.get? controllerKey with
    | none => rfl
    | some v => exact param?_defaultValue v
  unfold normalizeDefaults
  simp only [hparam]
  cases Value.paramOf? (defaults.get? controllerKey) with
  | none => exact .inl ⟨rfl, hmap⟩
  | some c =>
    refine .inr ⟨⟨c, ?_⟩, ⟨_, by rw [Dict.get?_insert, if_pos rfl]⟩, fun k hc ha => ?_⟩
    · rw [Dict.get?_insert, if_neg (by decide), Dict.get?_insert, if_pos rfl]
    · rw [Dict.get?_insert, if_neg (Ne.symm ha), Dict.get?_insert, if_neg (Ne.symm hc), hmap]

/-! ## Compilation -/

omit [Properties] in
/-- A default for a glob is dropped when it is blank and refused otherwise. -/
theorem dropGlobDefault_ok {defaults defaults' : Params} {segments : List Segment}
    (h : dropGlobDefault defaults segments = .ok defaults') (k : Text) :
    defaults'.get? k = if .glob k ∈ segments then none else defaults.get? k := by
  -- on the segments, each of which drops its own default alone
  induction segments generalizing defaults with
  | nil => cases h; simp
  | cons s segments ih =>
    cases s with
    | glob name =>
      rw [dropGlobDefault] at h
      split at h
      · next hnone =>
        rw [ih h]
        by_cases hk : name = k
        · subst hk
          simp [hnone]
        · simp [Ne.symm hk]
      · split at h
        · rw [ih h, Dict.get?_erase]
          by_cases hk : name = k
          · simp [hk]
          · simp [hk, Ne.symm hk]
        · cases h
    | static | capture | compound | format => simpa using ih h

/-- The steps of a compilation that succeeds. -/
theorem compile_eq_ok {d : Declaration} {c : Requirement} {r : Route} (h : compile d c = .ok r) :
    ∃ defaults, compileRequirements d.requirements c = .ok r.requirements ∧
      Template.read d.fullPath (normalizeDefaults d.defaults)
        (requiredNames r.requirements (normalizeDefaults d.defaults)) = .ok (r.segments, defaults) ∧
      dropGlobDefault defaults r.segments = .ok r.defaults ∧
      Regex.compile (Matcher.ofSegments r.requirements r.segments).source = .ok r.matcher ∧
      r.pattern = d.fullPath ∧ r.keys = segmentNames r.segments ∧
      r.groups = (Matcher.ofSegments r.requirements r.segments).keys ∧
      r.requiredDefaults = r.defaults.filter fun name _ => name ∉ r.keys := by
  -- one step of the compilation after the other
  obtain ⟨condition, -, h⟩ := bind_eq_ok.1 h
  obtain ⟨requirements, hrequirements, h⟩ := bind_eq_ok.1 h
  obtain ⟨⟨segments, defaults⟩, hread, h⟩ := bind_eq_ok.1 h
  obtain ⟨defaults', hglob, h⟩ := bind_eq_ok.1 h
  obtain ⟨matcher, hmatcher, h⟩ := bind_eq_ok.1 h
  cases h
  exact ⟨defaults, hrequirements, mapError_eq_ok.1 hread, hglob, mapError_eq_ok.1 hmatcher, rfl,
    rfl, rfl, rfl⟩

/-- The condition of a route is that of the tokens in its declaration. -/
theorem condition_of_compile {d : Declaration} {c : Requirement} {r : Route}
    (h : compile d c = .ok r) : MethodCondition.ofTokens d.methods = .ok r.condition := by
  obtain ⟨condition, hcondition, h⟩ := bind_eq_ok.1 h
  obtain ⟨_, -, h⟩ := bind_eq_ok.1 h
  obtain ⟨_, -, h⟩ := bind_eq_ok.1 h
  obtain ⟨_, -, h⟩ := bind_eq_ok.1 h
  obtain ⟨_, -, h⟩ := bind_eq_ok.1 h
  cases h
  exact mapError_eq_ok.1 hcondition

/-- The host of a route is that of its declaration. -/
theorem host_of_compile {d : Declaration} {c : Requirement} {r : Route}
    (h : compile d c = .ok r) : r.host = d.host := by
  obtain ⟨_, -, h⟩ := bind_eq_ok.1 h
  obtain ⟨_, -, h⟩ := bind_eq_ok.1 h
  obtain ⟨_, -, h⟩ := bind_eq_ok.1 h
  obtain ⟨_, -, h⟩ := bind_eq_ok.1 h
  obtain ⟨_, -, h⟩ := bind_eq_ok.1 h
  cases h
  rfl

/-! ## Parts of the template -/

/-- The components that a path has to have. -/
def required (r : Route) : List Segment :=
  (splitFormat r.segments).1.takeWhile fun s => !s.isOptional

/-- The components that may be missing. -/
def optional (r : Route) : List Segment :=
  (splitFormat r.segments).1.dropWhile fun s => !s.isOptional

/-- The name of the format at the end. -/
def format? (r : Route) : Option Text := (splitFormat r.segments).2

/-- The levels that may be missing, from the outermost in. -/
def levels (r : Route) : List Level := Matcher.levels r.optional r.format?

/-- The required, the optional and the format part of a route. -/
def parts (r : Route) : Template.Parts := ⟨r.required, r.optional, r.format?⟩

/-- The parts of a route are those that its pattern was read into. -/
theorem parts_eq {r : Route} {x : Template.Parts} {P : Text → Prop} (h : r.segments = x.segments)
    (hx : x.Shape P) : r.parts = x := by
  obtain ⟨htake, hdrop⟩ := Matcher.takeWhile_required hx.required hx.optional
  have hsplit := Template.Parts.splitFormat_segments hx
  rw [parts, required, optional, format?, h, hsplit]
  simp only [htake, hdrop]

/-! ## What compiling settles -/

/-- What is settled about a route that was compiled. -/
structure Compiled (r : Route) : Prop where
  segments : r.segments = r.parts.segments
  shape : r.parts.Shape (· ∈ Path.components r.pattern)
  format : r.format? ≠ none → r.required ++ r.optional ≠ []
  nodup : (segmentNames r.segments).Nodup
  keys : r.keys = segmentNames r.segments
  groups : r.groups = segmentNames r.segments
  source : r.matcher.source = (Matcher.ofSegments r.requirements r.segments).source
  globDefault : ∀ name, .glob name ∈ r.segments → r.defaults.get? name = none
  requiredDefaults : r.requiredDefaults = r.defaults.filter fun name _ => name ∉ r.keys

/-- What holds of every route that compiles. -/
theorem compiled_of_compile {d : Declaration} {c : Requirement} {r : Route}
    (h : compile d c = .ok r) : r.Compiled := by
  obtain ⟨defaults, -, hread, hdrop, hmatcher, hpattern, hkeys, hgroups, hrequired⟩ :=
    compile_eq_ok h
  obtain ⟨x, hx, hshape, hformat, hnodup, -⟩ := Template.shape_of_read hread
  have hparts := parts_eq hx hshape
  have hsplit := Template.Parts.splitFormat_segments hshape
  rw [← hx] at hsplit
  constructor
  case segments => rw [hparts, hx]
  case shape =>
    rw [hparts, hpattern]
    exact hshape
  case format =>
    show r.parts.format? ≠ none → r.parts.required ++ r.parts.optional ≠ []
    rw [hparts]
    exact hformat
  case nodup => exact hnodup
  case keys => exact hkeys
  case groups =>
    rw [hgroups, Matcher.ofSegments_keys hsplit hshape.required hshape.optional hformat, hx,
      Template.Parts.names_segments]
  case source => exact Regex.source_of_compile hmatcher
  case globDefault =>
    intro name hname
    rw [dropGlobDefault_ok hdrop, if_pos hname]
  case requiredDefaults => exact hrequired

omit [Properties] in
/-- The fixed texts among the slots of a segment are its literals. -/
theorem mem_literals_of_mem_slots {s : Segment} {t : Text} (h : Slot.text t ∈ s.slots) :
    t ∈ s.literals := by
  cases s with
  | static u =>
    cases List.mem_singleton.1 h
    exact List.mem_singleton_self t
  | capture | glob | format => cases List.mem_singleton.1 h
  | compound pieces =>
    obtain ⟨p, hp, heq⟩ := List.mem_map.1 h
    cases p with
    | literal u =>
      cases heq
      exact Component.mem_literals.2 hp
    | capture name => cases heq

end Route

end Routing
