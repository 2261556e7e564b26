import Routing.Proofs.Route.Language
import Routing.Proofs.Template.Optional

/-!
# What holds of every compiled route

The parts of a route are worked out one after another: the defaults that the template is read with,
the template that takes some of them away, the expression that is built from it. Recognition and
generation rely on their agreement, whatever was declared.

* `StandIn` — texts that stand in a text one after another
* `Route.numbered`, `Route.match?_eq` — the groups of the expression under their names
* `Route.groupSources_standIn` — the groups stand in the expression in their order
* `Route.WellFormed`, `Route.wellFormed_of_compile` — what holds of every route that was compiled
* `Route.blank_glob_and_format` — a glob takes the default of the action away, and a format keeps to
  none of the rules for captures
-/

namespace Routing

/-! ## Texts one after another -/

/-- The texts stand in `s` one after another. -/
def StandIn : List Text → Text → Prop
  | [], _ => True
  | t :: rest, s => ∃ before after, s = before ++ (t ++ after) ∧ StandIn rest after

namespace StandIn

variable {ts us : List Text} {s t : Text}

theorem before (h : StandIn ts s) (u : Text) : StandIn ts (u ++ s) := by
  cases ts with
  | nil => trivial
  | cons t ts =>
    obtain ⟨a, b, rfl, h⟩ := h
    exact ⟨u ++ a, b, (List.append_assoc ..).symm, h⟩

theorem append (h : StandIn ts s) (h' : StandIn us t) : StandIn (ts ++ us) (s ++ t) := by
  induction ts generalizing s with
  | nil => exact h'.before s
  | cons u ts ih =>
    obtain ⟨a, b, rfl, h⟩ := h
    exact ⟨a, b ++ t, by simp, ih h⟩

theorem after (h : StandIn ts s) (u : Text) : StandIn ts (s ++ u) := by
  have hnil : StandIn [] u := trivial
  simpa using h.append hnil

end StandIn

/-! ## The groups of an expression -/

namespace Slot

variable [Properties] {requirements : Dict Requirement}

variable (requirements) in
/-- The groups of slots; `n` is the number of the first one. -/
def groupSources (n : Nat) (slots : List Slot) : List Text :=
  ((captures slots).zipIdx n).map fun c => groupSource requirements c.2 c.1.1 c.1.2

/-- The groups of two lists of slots, with the count going on. -/
theorem groupSources_append (n : Nat) (a b : List Slot) :
    groupSources requirements n (a ++ b) =
      groupSources requirements n a ++ groupSources requirements (n + (captures a).length) b := by
  rw [groupSources, captures_append, List.zipIdx_append, List.map_append]
  rfl

/-- The groups of some slots stand in their source in order. -/
theorem standIn_source (n : Nat) (slots : List Slot) :
    StandIn (groupSources requirements n slots) (source requirements n slots) := by
  induction slots generalizing n with
  | nil => trivial
  | cons s slots ih =>
    cases s with
    | text t => exact (ih n).before _
    | capture key glob => exact ⟨[], _, rfl, ih (n + 1)⟩

/-- The groups of nested levels stand in their source in order. -/
theorem standIn_nestedSource (n : Nat) (levels : List (List Slot)) :
    StandIn (groupSources requirements n levels.flatten) (nestedSource requirements n levels) := by
  induction levels generalizing n with
  | nil => trivial
  | cons level levels ih =>
    -- the deeper levels stand inside the brackets of this one, after its own slots
    rw [List.flatten_cons, groupSources_append, nestedSource]
    exact (((standIn_source n level).append (ih _)).before _).after _

end Slot

namespace Route

section

variable [Properties] {r : Route}

/-- The groups of the expression under their names, each with the parameter that it captures. -/
def numbered (r : Route) : List (Text × Text) :=
  r.groups.zipIdx.map fun g => (Matcher.groupName g.2, g.1)

/-- One captured parameter is laid over `params`. -/
def overlayGroup (r : Route) (bound : List (Text × Text)) (params : Params) (g : Text × Text) :
    Params :=
  match Dict.lookup g.1 bound with
  | none => params
  | some text => params.insert g.2 (r.capturedValue g.2 text)

/-- Overlaying the groups is a fold over the keys with their names. -/
theorem overlayGroups_eq (r : Route) (bound : List (Text × Text)) (params : Params) (n : Nat)
    (keys : List Text) :
    r.overlayGroups bound params n keys =
      ((keys.zipIdx n).map fun g => (Matcher.groupName g.2, g.1)).foldl (r.overlayGroup bound)
        params := by
  induction keys generalizing params n with
  | nil => rfl
  | cons key keys ih => exact ih _ (n + 1)

/-- Matching reads the groups under their names. -/
theorem match?_eq (r : Route) (path : Text) :
    r.match? path = (r.matcher.match? path).map fun bound =>
      (r.numbered.foldl (r.overlayGroup bound) r.defaults).filter fun _ v => !v.isNil := by
  rw [match?]
  simp only [overlayGroups_eq]
  rfl

theorem numbered_map_snd (r : Route) : r.numbered.map Prod.snd = r.groups := by
  rw [numbered, List.map_map]
  exact List.zipIdx_map_fst 0 r.groups

theorem nodup_numbered (r : Route) : (r.numbered.map Prod.fst).Nodup := by
  have hnames : r.numbered.map Prod.fst = Matcher.groupNames 0 r.groups.length := by
    rw [numbered, List.map_map, Matcher.groupNames, ← List.zipIdx_map_snd, List.map_map]
    rfl
  rw [hnames]
  exact Matcher.nodup_groupNames 0 _

/-- The captures of all slots are the parameters in order. -/
theorem captures_slotsAt (h : r.Compiled) :
    Slot.captures (r.slotsAt r.levels.length) = r.keys.map fun k => (k, r.isGlob k) := by
  have hkeys : Slot.names (r.slotsAt r.levels.length) = r.keys := by
    rw [names_slotsAt h, h.keys, names_eq h r.levels.length, List.drop_length, List.flatMap_nil,
      List.append_nil]
  have hcaptures : (Slot.captures (r.slotsAt r.levels.length)).map id =
      (Slot.captures (r.slotsAt r.levels.length)).map fun c => (c.1, r.isGlob c.1) := by
    apply List.map_congr_left
    rintro ⟨name, glob⟩ hc
    obtain ⟨l, hl, hc⟩ := (mem_slotsAt h _).1 (Slot.mem_captures.1 hc)
    rw [isGlob_eq h hl hc]
    rfl
  rw [List.map_id] at hcaptures
  rw [hcaptures, ← hkeys, Slot.names, List.map_map]
  rfl

/-- The groups stand in the expression in the order of the parameters. -/
theorem groupSources_standIn (h : r.Compiled) :
    StandIn (r.keys.zipIdx.map fun g => Slot.groupSource r.requirements g.2 g.1 (r.isGlob g.1))
      r.matcher.source := by
  have hgroups : Slot.groupSources r.requirements 0 (r.slotsAt r.levels.length) =
      r.keys.zipIdx.map fun g => Slot.groupSource r.requirements g.2 g.1 (r.isGlob g.1) := by
    rw [Slot.groupSources, captures_slotsAt h, List.zipIdx_map, List.map_map]
    rfl
  rw [← hgroups, h.source, Matcher.ofSegments_source
    (h.segments ▸ Template.Parts.splitFormat_segments h.shape) h.shape.required h.shape.optional
    h.format, slotsAt, ← length_levelSlots, List.take_length, Slot.groupSources_append, Nat.zero_add]
  exact (((Slot.standIn_source 0 _).append (Slot.standIn_nestedSource _ _)).before _).after _

/-! ## The rules -/

/-- What holds of a route, `d` being its declaration and `c` the requirement on controllers that it
is compiled against. -/
structure WellFormed (d : Declaration) (c : Requirement) (r : Route) : Prop where
  keys : r.keys = segmentNames r.segments
  nodup : r.keys.Nodup
  /-- The groups capture the parameters in order. -/
  groups : r.numbered.map Prod.snd = r.keys
  distinct : (r.numbered.map Prod.fst).Nodup
  source : StandIn
    (r.keys.zipIdx.map fun g => Slot.groupSource r.requirements g.2 g.1 (r.isGlob g.1))
    r.matcher.source
  requiredDefaults : ∀ k, r.requiredDefaults.get? k =
    if k ∈ r.keys then none else r.defaults.get? k
  globDefault : ∀ k, .glob k ∈ r.segments → r.defaults.get? k = none
  noNumber : ∀ k i, r.defaults.get? k ≠ some (.int i)
  /-- With a path form the default of the controller is a text, and then that of the action is one
  too, unless the action is the glob. -/
  controller : ∀ v, r.defaults.get? controllerKey = some v → v.param?.isSome = true →
    (∃ s, v = .str s) ∧
      (.glob actionKey ∉ r.segments → ∃ s, r.defaults.get? actionKey = some (.str s))
  /-- The requirement on controllers is the declared one, or else `c`. -/
  requirement : ∃ q, r.requirements.get? controllerKey = some q ∧
    (d.requirements.get? controllerKey = none → q = c) ∧
    ∀ source, d.requirements.get? controllerKey = some source → Requirement.compile source = .ok q
  /-- A requirement without a default insists on a capture, but not on the format. -/
  insisted : ∀ s ∈ r.segments, ∀ k ∈ s.names, (r.requirements.get? k).isSome = true →
    (normalizeDefaults d.defaults).get? k = none → s.isOptional = false ∨ s = .format k
  /-- Nil is the default of optional captures with a meaning of their own alone. -/
  nilDefault : ∀ s ∈ r.segments, s.isOptional = true → ∀ k ∈ s.names,
    r.defaults.get? k = some .nil →
      k = controllerKey ∨ k = actionKey ∨ k = idKey ∨ s = .format k
  formatDefault : ∀ k, .format k ∈ r.segments →
    r.defaults.get? k = (normalizeDefaults d.defaults).get? k

omit [Properties] in
/-- An optional segment is a capture or the format. -/
theorem optional_cases {s : Segment} {k : Text} (hs : s.isOptional = true) (hk : k ∈ s.names) :
    s = .capture k true ∨ s = .format k := by
  cases s with
  | capture name optional =>
    cases List.mem_singleton.1 hk
    exact .inl (congrArg _ hs)
  | format name =>
    cases List.mem_singleton.1 hk
    exact .inr rfl
  | static | glob | compound => cases hs

/-- A name with a requirement and without a default is insisted on. -/
theorem mem_requiredNames {requirements : Dict Requirement} {defaults : Params} {k : Text}
    (hk : (requirements.get? k).isSome = true) (hnone : defaults.get? k = none) :
    k ∈ requiredNames requirements defaults := by
  refine List.mem_filter.2 ⟨Dict.mem_keys.2 hk, ?_⟩
  rw [Dict.contains, hnone]
  rfl

omit [Properties] in
/-- No default is a number. -/
theorem normalizeDefaults_ne_int (defaults : Params) (k : Text) (i : Int) :
    (normalizeDefaults defaults).get? k ≠ some (.int i) := by
  have hmap : (defaults.get? k).map defaultValue ≠ some (.int i) := fun h => by
    obtain ⟨v, -, hv⟩ := Option.map_eq_some_iff.1 h
    exact defaultValue_ne_int v i hv
  -- the controller and the action are texts, and any other default is normalised by itself
  rcases normalizeDefaults_cases defaults with ⟨-, hget⟩ | ⟨⟨_, hcontroller⟩, ⟨_, haction⟩, hget⟩
  · rw [hget]
    exact hmap
  · by_cases hc : k = controllerKey
    · rw [hc, hcontroller]
      simp
    by_cases ha : k = actionKey
    · rw [ha, haction]
      simp
    rw [hget k hc ha]
    exact hmap

omit [Properties] in
/-- A controller with a path form is a text, and the action is one, too. -/
theorem normalizeDefaults_texts {defaults : Params} {v : Value}
    (hv : (normalizeDefaults defaults).get? controllerKey = some v)
    (hparam : v.param?.isSome = true) :
    (∃ s, v = .str s) ∧ ∃ s, (normalizeDefaults defaults).get? actionKey = some (.str s) := by
  rcases normalizeDefaults_cases defaults with ⟨hnone, hget⟩ | ⟨⟨s, hcontroller⟩, haction, -⟩
  · rw [hget] at hv
    obtain ⟨w, hw, rfl⟩ := Option.map_eq_some_iff.1 hv
    rw [hw] at hnone
    rw [param?_defaultValue, show w.param? = none from hnone] at hparam
    cases hparam
  · exact ⟨⟨s, Option.some.inj (hv.symm.trans hcontroller)⟩, haction⟩

section Compile

variable {d : Declaration} {c : Requirement}

/-- The tail that the segments of a route were found as. -/
theorem exists_tail (h : compile d c = .ok r) :
    ∃ t : Template.Tail, t.segments = r.segments ∧
      t.Analysed (requiredNames r.requirements (normalizeDefaults d.defaults))
        (normalizeDefaults d.defaults) ∧
      ∀ k, r.defaults.get? k = if .glob k ∈ r.segments then none else t.defaults.get? k := by
  obtain ⟨_, -, hread, hdrop, -⟩ := compile_eq_ok h
  obtain ⟨t, hsegments, rfl, ht⟩ := Template.analysed_of_read hread
  exact ⟨t, hsegments, ht, dropGlobDefault_ok hdrop⟩

/-- Of the defaults that the template is read with, a route has all but those of a glob and those
that have told no more than that a capture may be missing. -/
theorem get?_defaults (h : compile d c = .ok r) (k : Text) (v : Value) :
    r.defaults.get? k = some v ↔ (normalizeDefaults d.defaults).get? k = some v ∧
      .glob k ∉ r.segments ∧ ¬ Template.Dropped r.segments k v := by
  obtain ⟨t, hsegments, ht, hdefaults⟩ := exists_tail h
  rw [hdefaults]
  split
  · next hglob => simp [hglob]
  · next hglob => rw [ht.remaining, hsegments, and_iff_right hglob]

/-- The default of the format is the one that the template was read with. -/
theorem get?_format (h : compile d c = .ok r) {k : Text} (hk : .format k ∈ r.segments) :
    r.defaults.get? k = (normalizeDefaults d.defaults).get? k := by
  have hunique {s : Segment} (hs : s ∈ r.segments) (hname : k ∈ s.names) : s = .format k :=
    segment_unique (compiled_of_compile h) hs hk hname (List.mem_singleton_self k)
  apply Option.ext
  intro v
  rw [get?_defaults h, and_iff_left]
  constructor
  · intro hglob
    cases hunique hglob (List.mem_singleton_self k)
  · rintro ⟨-, hcapture, -⟩
    cases hunique hcapture (List.mem_singleton_self k)

/-- Whatever is declared, a route that compiles is well formed. -/
theorem wellFormed_of_compile (h : compile d c = .ok r) : r.WellFormed d c := by
  have hcompiled := compiled_of_compile h
  obtain ⟨_, hrequirements, -⟩ := compile_eq_ok h
  obtain ⟨hnone, hsome⟩ := get?_compileRequirements hrequirements controllerKey
  obtain ⟨t, hsegments, ht, -⟩ := exists_tail h
  -- most rules are those of the compiled route; the last ones go back to how the template was read
  constructor
  case keys => exact hcompiled.keys
  case nodup => exact hcompiled.keys ▸ hcompiled.nodup
  case groups => rw [numbered_map_snd, hcompiled.groups, hcompiled.keys]
  case distinct => exact nodup_numbered r
  case source => exact groupSources_standIn hcompiled
  case requiredDefaults =>
    intro k
    rw [hcompiled.requiredDefaults, Dict.get?_filter]
    cases r.defaults.get? k <;> simp [Option.filter]
  case globDefault => exact hcompiled.globDefault
  case noNumber =>
    intro k i hi
    exact normalizeDefaults_ne_int _ k i ((get?_defaults h k _).1 hi).1
  case controller =>
    intro v hv hparam
    obtain ⟨htext, a, ha⟩ := normalizeDefaults_texts ((get?_defaults h _ v).1 hv).1 hparam
    refine ⟨htext, fun hglob => ⟨a, (get?_defaults h _ _).2 ⟨ha, hglob, ?_⟩⟩⟩
    rintro ⟨hnil, -⟩
    cases hnil
  case requirement =>
    cases hd : d.requirements.get? controllerKey with
    | none => exact ⟨c, (hnone hd).trans (if_pos rfl), fun _ => rfl, nofun⟩
    | some source =>
      obtain ⟨q, hq, hget⟩ := hsome source hd
      refine ⟨q, hget, nofun, ?_⟩
      rintro _ ⟨⟩
      exact hq
  case insisted =>
    intro s hs k hk hrequirement habsent
    -- the tail was found with this name among those that are insisted on
    by_contra hne
    obtain ⟨hoptional, hformat⟩ := not_or.1 hne
    rw [Bool.not_eq_false] at hoptional
    obtain rfl := (optional_cases hoptional hk).resolve_right hformat
    exact ht.free_of_optional (hsegments ▸ hs) (mem_requiredNames hrequirement habsent)
  case nilDefault =>
    intro s hs hoptional k hk hnil
    rcases optional_cases hoptional hk with rfl | rfl
    · have hkept := ((get?_defaults h k .nil).1 hnil).2.2
      by_contra hne
      simp only [not_or] at hne
      exact hkept ⟨rfl, hs, hne.1, hne.2.1, hne.2.2.1⟩
    · exact .inr (.inr (.inr rfl))
  case formatDefault => exact fun k hk => get?_format h hk

end Compile

end

/-- A route for the articles of a month, or of a year. -/
def monthDeclaration : Declaration :=
  { Declaration.blank with
    path := "page/:year/:month.:format".toList
    defaults := .ofList [(controllerKey, .str "page".toList), ("month".toList, .nil)]
    requirements := .ofList [("year".toList, .plain "\\d\x7b4\x7d".toList)] }

theorem wellFormed_of_compile_month : ∃ c r, compile monthDeclaration c = .ok r ∧
    r.keys = ["year".toList, "month".toList, "format".toList] ∧
      r.WellFormed monthDeclaration c := by
  have hcompiled : ((bare? monthDeclaration).any fun r =>
      r.keys = ["year".toList, "month".toList, "format".toList]) = true := by
    decide +kernel
  obtain ⟨r, hr, hkeys⟩ := (Option.any_eq_true _ _).1 hcompiled
  obtain ⟨c, -, -, hc⟩ := exists_of_bare? hr
  exact ⟨c, r, hc, of_decide_eq_true hkeys, wellFormed_of_compile hc⟩

/-! ## Globs and formats apart -/

/-- A route whose action is a glob, with a blank default. -/
def blankActionDeclaration : Declaration :=
  { Declaration.blank with
    path := "*action".toList
    defaults := .ofList [(controllerKey, .str "c".toList), (actionKey, .str [])] }

/-- A route with a requirement on the format. -/
def newsDeclaration : Declaration :=
  { Declaration.blank with
    path := "news.:format".toList
    defaults := .ofList [(controllerKey, .str "c".toList)]
    requirements := .ofList [("format".toList, .plain "html|xml".toList)] }

/-- A route without a format unless one is asked for. -/
def plainNewsDeclaration : Declaration :=
  { Declaration.blank with
    path := "news.:format".toList
    defaults := .ofList [(controllerKey, .str "c".toList), ("format".toList, .nil)] }

/-- With a controller a glob may leave no action, and the format is optional in spite of its
requirement and keeps a nil. -/
theorem blank_glob_and_format : ∃ c n, Namespaces.empty.requirement = .ok (c, n) ∧
    (∃ r, compile blankActionDeclaration c = .ok r ∧
      r.defaults.get? controllerKey = some (.str "c".toList) ∧
      r.defaults.get? actionKey = none) ∧
    (∃ r, compile newsDeclaration c = .ok r ∧
      (∃ s ∈ r.segments, "format".toList ∈ s.names ∧ s.isOptional = true) ∧
      (r.requirements.get? "format".toList).isSome = true ∧
      (normalizeDefaults newsDeclaration.defaults).get? "format".toList = none) ∧
    ∃ r, compile plainNewsDeclaration c = .ok r ∧
      (∃ s ∈ r.segments, "format".toList ∈ s.names ∧ s.isOptional = true) ∧
      r.defaults.get? "format".toList = some .nil := by
  -- the three declarations are compiled by evaluation, against one requirement on controllers
  have haction : ((bare? blankActionDeclaration).any fun r =>
      r.defaults.get? controllerKey = some (.str "c".toList) ∧
        r.defaults.get? actionKey = none) = true := by
    decide +kernel
  have hnews : ((bare? newsDeclaration).any fun r =>
      (∃ s ∈ r.segments, "format".toList ∈ s.names ∧ s.isOptional = true) ∧
        (r.requirements.get? "format".toList).isSome = true) = true := by
    decide +kernel
  have hplain : ((bare? plainNewsDeclaration).any fun r =>
      (∃ s ∈ r.segments, "format".toList ∈ s.names ∧ s.isOptional = true) ∧
        r.defaults.get? "format".toList = some .nil) = true := by
    decide +kernel
  have hnone : (normalizeDefaults newsDeclaration.defaults).get? "format".toList = none := by
    decide +kernel
  obtain ⟨r₁, hr₁, h₁⟩ := (Option.any_eq_true _ _).1 haction
  obtain ⟨r₂, hr₂, h₂⟩ := (Option.any_eq_true _ _).1 hnews
  obtain ⟨r₃, hr₃, h₃⟩ := (Option.any_eq_true _ _).1 hplain
  obtain ⟨c, n, hc, hr₁⟩ := exists_of_bare? hr₁
  obtain ⟨_, _, hc₂, hr₂⟩ := exists_of_bare? hr₂
  obtain ⟨_, _, hc₃, hr₃⟩ := exists_of_bare? hr₃
  cases hc.symm.trans hc₂
  cases hc.symm.trans hc₃
  obtain ⟨hoptional, hrequirement⟩ := of_decide_eq_true h₂
  exact ⟨c, n, hc, ⟨r₁, hr₁, of_decide_eq_true h₁⟩, ⟨r₂, hr₂, hoptional, hrequirement, hnone⟩,
    r₃, hr₃, of_decide_eq_true h₃⟩

end Route

end Routing
