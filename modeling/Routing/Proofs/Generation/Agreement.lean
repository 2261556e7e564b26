import Routing.Proofs.Generation.Link

/-!
# What a link depends on

A route looks at its parameters in two ways: it compares path forms, and it writes the texts of its
captures. Of the options it asks besides which of them are named. So two runs have the same path
when they agree in these, for the parameters that the route consults, and they leave over the same
part of their options.

* `Route.consulted` — the parameters whose recalled values a route looks at
* `Route.Agrees` — a route writes and compares a parameter alike in two runs
* `Route.link?_eq` — a link, told by the steps of the rendering
* `Route.link?_agrees` — the links of runs that agree
* `Route.link?_congr` — only the parameters that are consulted decide about a link
-/

namespace Routing

/-! ## What a route consults -/

variable [Properties]

namespace Route

/-- The levels that are rendered if they can be: those that the options mention, and those around
them. -/
def mentioned (options : Params) : List Level → List Level
  | [] => []
  | level :: rest =>
    if ((level :: rest).flatMap Level.names).all fun name => !options.contains name then []
    else level :: mentioned options rest

/-- The parameters whose recalled values decide about the link. -/
def consulted (r : Route) (options : Params) : List Text :=
  r.requiredDefaults.keys ++ segmentNames r.required ++
    (mentioned options r.levels).flatMap Level.names

/-- From either collection of parameters the route takes the same path form and the same text. -/
structure Agrees (r : Route) (p q : Params) (name : Text) : Prop where
  form : Value.paramOf? (Rendering.value? ⟨r, p⟩ name) =
    Value.paramOf? (Rendering.value? ⟨r, q⟩ name)
  text : ∀ glob, Rendering.capture? ⟨r, p⟩ name glob = Rendering.capture? ⟨r, q⟩ name glob

variable {r : Route} {p q : Params} {name : Text}

/-- Parameters agree on a name when they give it the same value. -/
theorem Agrees.of_value? (h : Rendering.value? ⟨r, p⟩ name = Rendering.value? ⟨r, q⟩ name) :
    r.Agrees p q name where
  form := by rw [h]
  text := by
    intro glob
    rw [Rendering.capture?, Rendering.capture?, h]
    rfl

/-- Parameters agree on a name when they have the same under it. -/
theorem Agrees.of_get? (h : p.get? name = q.get? name) : r.Agrees p q name := by
  apply Agrees.of_value?
  have hgiven : Params.given? p name = Params.given? q name := by
    rw [Params.given?, Params.given?, h]
  rw [Rendering.value?, Rendering.value?, hgiven]

end Route

/-! ## Renderings that agree -/

namespace Rendering

variable {r : Route} {p q : Params}

/-- The pieces of a component are rendered alike. -/
theorem pieces?_congr {pieces : List Piece}
    (h : ∀ name ∈ (Segment.compound pieces).names, r.Agrees p q name) :
    pieces? ⟨r, p⟩ pieces = pieces? ⟨r, q⟩ pieces := by
  induction pieces with
  | nil => rfl
  | cons piece rest ih =>
    cases piece with
    | literal t =>
      rw [pieces?, pieces?, ih h]
    | capture name =>
      have hrest : ∀ name ∈ (Segment.compound rest).names, r.Agrees p q name :=
        fun name hname => h name (List.mem_cons_of_mem _ hname)
      rw [pieces?, pieces?, (h name List.mem_cons_self).text false, ih hrest]

theorem segment?_congr {s : Segment} (h : ∀ name ∈ s.names, r.Agrees p q name) :
    segment? ⟨r, p⟩ s = segment? ⟨r, q⟩ s := by
  cases s with
  | static t => rfl
  | capture name => exact (h name List.mem_cons_self).text false
  | glob name => exact (h name List.mem_cons_self).text true
  | format name => exact (h name List.mem_cons_self).text false
  | compound pieces => exact pieces?_congr h

/-- The required components are rendered alike. -/
theorem required?_congr {segments : List Segment}
    (h : ∀ name ∈ segmentNames segments, r.Agrees p q name) :
    required? ⟨r, p⟩ segments = required? ⟨r, q⟩ segments := by
  induction segments with
  | nil => rfl
  | cons s rest ih =>
    have hs := segment?_congr (r := r) fun name hname =>
      h name (List.mem_flatMap_of_mem List.mem_cons_self hname)
    have hrest := ih fun name hname => by
      obtain ⟨s', hs', hname⟩ := List.mem_flatMap.1 hname
      exact h name (List.mem_flatMap_of_mem (List.mem_cons_of_mem _ hs') hname)
    rw [required?, required?, hs, hrest]

theorem level?_congr {level : Level} (h : ∀ name ∈ level.names, r.Agrees p q name) :
    level? ⟨r, p⟩ level = level? ⟨r, q⟩ level := by
  cases level with
  | component s => exact segment?_congr h
  | format name => exact (h name List.mem_cons_self).text false

/-- A level repeats its defaults in both or in neither. -/
theorem isDefault_congr {level : Level} (h : ∀ name ∈ level.names, r.Agrees p q name) :
    isDefault ⟨r, p⟩ level = isDefault ⟨r, q⟩ level := by
  rw [Bool.eq_iff_iff, isDefault, isDefault, List.all_eq_true, List.all_eq_true]
  apply forall₂_congr
  intro name hname
  rw [(h name hname).form]

omit [Properties] in
theorem without_append (params : Params) (names names' : List Text) :
    without (without params names) names' = without params (names ++ names') :=
  List.foldl_append.symm

/-- The tail looks at the levels that the options mention, and at those around them; of the options
themselves it asks only which are named. -/
theorem tail_congr {pending pending' : Params} {levels : List Level}
    (hpending : ∀ k, pending.contains k = pending'.contains k)
    (h : ∀ name ∈ (Route.mentioned pending levels).flatMap Level.names, r.Agrees p q name) :
    (tail ⟨r, p⟩ pending levels).1 = (tail ⟨r, q⟩ pending' levels).1 ∧
      ∃ names, (tail ⟨r, p⟩ pending levels).2 = without pending names ∧
        (tail ⟨r, q⟩ pending' levels).2 = without pending' names := by
  -- on the levels; those that are not mentioned are not looked at
  induction levels with
  | nil => exact ⟨rfl, [], rfl, rfl⟩
  | cons level rest ih =>
    rw [tail, tail]
    rw [Route.mentioned] at h
    simp only [← hpending]
    split
    · exact ⟨rfl, [], rfl, rfl⟩
    · next hmention =>
      rw [if_neg hmention] at h
      have hlevel : ∀ name ∈ level.names, r.Agrees p q name :=
        fun name hname => h name (List.mem_flatMap_of_mem List.mem_cons_self hname)
      obtain ⟨hdeeper, names, hleft, hleft'⟩ := ih fun name hname => by
        obtain ⟨l, hl, hname⟩ := List.mem_flatMap.1 hname
        exact h name (List.mem_flatMap_of_mem (List.mem_cons_of_mem _ hl) hname)
      rw [level?_congr hlevel, isDefault_congr hlevel]
      split
      · exact ⟨rfl, [], rfl, rfl⟩
      · -- what the deeper levels have consumed and what this one consumes are the same in both
        simp only [hdeeper, hleft, hleft', without_append]
        split
        · exact ⟨rfl, _, rfl, rfl⟩
        · exact ⟨rfl, _, rfl, rfl⟩

end Rendering

/-! ## Links -/

namespace Route

open Rendering

variable {r : Route} {options options' recalled recalled' : Params}

/-- What is left over of options when some of them are consumed. -/
def leftOver (r : Route) (options : Params) (consumed : List Text) : Params :=
  (r.dropDefaults (without options consumed)).filter fun _ v => v.isTruthy

/-- What is left over is truthy, not consumed and not a repeated default. -/
theorem get?_leftOver (options : Params) (consumed : List Text) (k : Text) :
    (r.leftOver options consumed).get? k = if k ∈ consumed then none
      else (options.get? k).filter fun v =>
        v.isTruthy && (r.defaults.get? k).all fun d => !d.sameParam v := by
  rw [leftOver, Dict.get?_filter, get?_dropDefaults, get?_without]
  split
  · rfl
  · rw [Option.filter_filter]
    simp only [Bool.and_comm]

/-- The link of the required components and the tail. Without components the path is the root, and
what neither of them has consumed is left over. -/
def linkOf (r : Route) (tail : Option Text × Params) (start : Text) : Link :=
  let path := start ++ tail.1.getD []
  ⟨if path.isEmpty then ['/'] else path, r.leftOver tail.2 (segmentNames r.required)⟩

/-- A link is made of what the tail shows and leaves, once the defaults are met. -/
theorem link?_eq (r : Route) (options recalled : Params) : r.link? options recalled =
    if r.meetsDefaults (recalled.overlay options) then
      (required? ⟨r, recalled.overlay options⟩ r.required).map
        (r.linkOf (tail ⟨r, recalled.overlay options⟩ options r.levels))
    else none := by
  rw [link?, render?]
  by_cases hmeets : r.meetsDefaults (recalled.overlay options) = true
  · simp only [hmeets, if_true]
    change Option.map _ (Option.bind (required? _ r.required) fun start => _) = _
    cases required? ⟨r, recalled.overlay options⟩ r.required with
    | none => rfl
    | some start => rfl
  · simp only [hmeets]
    rfl

/-- Runs that meet the same defaults, name the same options and agree in what the route consults
have the same path, and the same options are consumed. -/
theorem link?_agrees
    (hmeets : r.meetsDefaults (recalled.overlay options) =
      r.meetsDefaults (recalled'.overlay options'))
    (hnames : ∀ k, options.contains k = options'.contains k)
    (h : ∀ name ∈ segmentNames r.required ++ (mentioned options r.levels).flatMap Level.names,
      r.Agrees (recalled.overlay options) (recalled'.overlay options') name) :
    Option.Rel (fun l l' => l.path = l'.path ∧ ∃ consumed,
        l.extras = r.leftOver options consumed ∧ l'.extras = r.leftOver options' consumed)
      (r.link? options recalled) (r.link? options' recalled') := by
  have hrequired := required?_congr (r := r) fun name hname => h name (List.mem_append_left _ hname)
  have hlevels : ∀ name ∈ (mentioned options r.levels).flatMap Level.names,
      r.Agrees (recalled.overlay options) (recalled'.overlay options') name :=
    fun name hname => h name (List.mem_append_right _ hname)
  obtain ⟨hdeeper, names, hleft, hleft'⟩ := tail_congr hnames hlevels
  rw [link?_eq, link?_eq, ← hmeets, ← hrequired]
  -- the defaults are met in both or in neither
  split
  · cases required? ⟨r, recalled.overlay options⟩ r.required with
    | none => exact .none
    | some start =>
      refine .some ⟨?_, names ++ segmentNames r.required, ?_, ?_⟩
      · rw [linkOf, linkOf, hdeeper]
      · rw [linkOf, hleft, leftOver, leftOver, without_append]
      · rw [linkOf, hleft', leftOver, leftOver, without_append]
  · exact .none

/-- Parameters meet the defaults when each has the path form of its required default. -/
theorem meetsDefaults_iff {p : Params} : r.meetsDefaults p = true ↔
    ∀ name d, r.requiredDefaults.get? name = some d →
      Value.paramOf? (p.get? name) = d.param? := by
  rw [meetsDefaults, List.all_eq_true, Prod.forall]
  apply forall₂_congr
  intro name d
  rw [Dict.mem_entries_iff, decide_eq_true_iff]

/-- Parameters with the same path forms meet the same defaults. -/
theorem meetsDefaults_congr {p q : Params}
    (h : ∀ name ∈ r.requiredDefaults.keys,
      Value.paramOf? (p.get? name) = Value.paramOf? (q.get? name)) :
    r.meetsDefaults p = r.meetsDefaults q := by
  rw [Bool.eq_iff_iff, meetsDefaults_iff, meetsDefaults_iff]
  apply forall₂_congr
  intro name d
  apply imp_congr_right
  intro hd
  rw [h name (List.mem_map_of_mem (Dict.mem_entries_iff.2 hd))]

/-- Runs with the same options have the same link when they agree. -/
theorem link?_eq_of_agrees
    (hmeets : r.meetsDefaults (recalled.overlay options) =
      r.meetsDefaults (recalled'.overlay options))
    (h : ∀ name ∈ segmentNames r.required ++ (mentioned options r.levels).flatMap Level.names,
      r.Agrees (recalled.overlay options) (recalled'.overlay options) name) :
    r.link? options recalled = r.link? options recalled' := by
  have hlinks := link?_agrees hmeets (fun _ => rfl) h
  generalize r.link? options recalled = x at hlinks
  generalize r.link? options recalled' = y at hlinks
  -- the options are the same, so that the same is left over of them
  cases hlinks with
  | none => rfl
  | @some l l' hl =>
    obtain ⟨hpath, consumed, hextras, hextras'⟩ := hl
    cases l
    cases l'
    simp_all

/-- Recalled parameters that a route does not consult, or that the options name, make no
difference. -/
theorem link?_congr (h : ∀ name ∈ r.consulted options,
      (recalled.overlay options).get? name = (recalled'.overlay options).get? name) :
    r.link? options recalled = r.link? options recalled' := by
  rw [consulted, List.append_assoc] at h
  apply link?_eq_of_agrees
  · apply meetsDefaults_congr
    intro name hname
    rw [h name (List.mem_append_left _ hname)]
  · exact fun name hname => .of_get? (h name (List.mem_append_right _ hname))

end Route

end Routing
