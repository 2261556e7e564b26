import Routing.Proofs.Route.Language
import Routing.Proofs.Template.Size

/-!
# Compiling without requirements

The expression of a template is refused for two reasons only: more levels may be missing than
expressions nest, or the pattern is very long. Otherwise a route matches exactly the paths that its
template describes.

* `Route.matcher_of_compile` — why an expression is refused
* `Route.compile_bare` — what compiling gives
-/

namespace Routing

namespace Route

open Regex

section

variable [Properties] {d : Declaration} {c : Requirement} {n : Namespaces} {p : Text} {f : Fault}

/-- What the template of a declaration without requirements is. -/
def Reads (d : Declaration) (c : Requirement) (segments : List Segment) : Prop :=
  ∃ defaults, Template.read d.fullPath (normalizeDefaults d.defaults)
    (requiredNames (Dict.empty.insert controllerKey c) (normalizeDefaults d.defaults)) =
      .ok (segments, defaults)

/-- An expression is refused where it is read. -/
theorem compile_eq_error_iff {s : Text} :
    Regex.compile s = .error f ↔ Regex.parse s = .error f := by
  unfold Regex.compile
  split
  · next h => simp [h]
  · next h => simp [h]

omit [Properties] in
/-- Dropping the default of a glob fails with that glob alone. -/
theorem dropGlobDefault_error {defaults : Params} {segments : List Segment} {e : CompileError}
    (h : dropGlobDefault defaults segments = .error e) : ∃ name, e = .globDefault name := by
  induction segments generalizing defaults with
  | nil => cases h
  | cons s segments ih =>
    cases s with
    | glob name =>
      rw [dropGlobDefault] at h
      split at h
      · exact ih h
      · split at h
        · exact ih h
        · cases h
          exact ⟨name, rfl⟩
    | static | capture | compound | format => exact ih h

/-- The step of a compilation at which the expression is refused. -/
theorem matcher_of_compile (hd : d.requirements = .empty)
    (h : compile d c = .error (.matcher p f)) :
    ∃ segments, Reads d c segments ∧
      Regex.parse (Matcher.ofSegments (Dict.empty.insert controllerKey c) segments).source =
        .error f := by
  unfold compile at h
  rw [hd, compileRequirements_empty] at h
  -- the fault of every earlier step is of another kind
  rcases bind_eq_error.1 h with h | ⟨condition, -, h⟩
  · obtain ⟨_, _, h⟩ := mapError_eq_error.1 h
    cases h
  rcases bind_eq_error.1 h with h | ⟨requirements, hrequirements, h⟩
  · cases h
  cases hrequirements
  rcases bind_eq_error.1 h with h | ⟨⟨segments, defaults⟩, hread, h⟩
  · obtain ⟨_, _, h⟩ := mapError_eq_error.1 h
    cases h
  rcases bind_eq_error.1 h with h | ⟨defaults', -, h⟩
  · obtain ⟨name, h⟩ := dropGlobDefault_error h
    cases h
  rcases bind_eq_error.1 h with h | ⟨matcher, -, h⟩
  · obtain ⟨_, hmatcher, h⟩ := mapError_eq_error.1 h
    cases h
    exact ⟨segments, ⟨defaults, mapError_eq_ok.1 hread⟩, compile_eq_error_iff.1 hmatcher⟩
  · cases h

omit [Properties] in
/-- The segments that may be missing are one for every level of the tail. -/
theorem length_optional {x : Template.Parts} {P : Text → Prop} (h : x.Shape P) :
    (x.segments.filter Segment.isOptional).length =
      (Matcher.levels x.optional x.format?).length := by
  have hrequired : x.required.filter Segment.isOptional = [] := by
    rw [List.filter_eq_nil_iff]
    intro s hs
    rw [h.required s hs]
    exact Bool.false_ne_true
  have hoptional : x.optional.filter Segment.isOptional = x.optional := by
    rw [List.filter_eq_self]
    intro s hs
    obtain ⟨name, rfl⟩ := h.optional s hs
    rfl
  rw [Template.Parts.segments, List.filter_append, List.filter_append, hrequired, hoptional,
    List.nil_append, Matcher.levels, List.length_append, List.length_append, List.length_map]
  cases x.format? <;> rfl

/-- An expression is refused when more than 81 levels may be missing, or when the pattern has more
than ten thousand characters. -/
theorem limits_of_refused (hc : Namespaces.empty.requirement = .ok (c, n)) {segments : List Segment}
    (hread : Reads d c segments)
    (hparse : Regex.parse (Matcher.ofSegments (Dict.empty.insert controllerKey c) segments).source =
      .error f) :
    f = .nesting ∧ 81 < (segments.filter Segment.isOptional).length ∨
      f = .size ∧ 10000 < d.fullPath.length := by
  obtain ⟨defaults, hread⟩ := hread
  obtain ⟨x, rfl, hshape, hformat, -⟩ := Template.shape_of_read hread
  obtain ⟨depth, -, hdepth, -, hspells⟩ := Matcher.spells_ofSegments (bare_of_requirement hc)
    (Template.Parts.splitFormat_segments hshape) hshape.required hshape.optional hformat
  -- parsing a spelled source fails at a limit and nowhere else
  rw [hspells.parse (Matcher.nodup_groupNames ..)] at hparse
  split at hparse
  · split at hparse
    · cases hparse
    · next hfits =>
      cases hparse
      right
      refine ⟨rfl, ?_⟩
      by_contra hshort
      have hweight := Template.weight_of_read hread
      refine hfits (Matcher.fits_templateExprs ?_)
      have hlimit : Expr.sizeLimit = 10485760 := rfl
      rw [Template.Parts.segments] at hweight
      omega
  · next hdeep =>
    cases hparse
    left
    refine ⟨rfl, ?_⟩
    rw [length_optional hshape]
    have hseq : seqDepth (Matcher.templateExprs x.required x.optional x.format?) depth ≤
        depth + 1 := by
      unfold seqDepth Syntax.seqDepth
      split <;> omega
    have hlimit : Syntax.depthLimit = 250 := rfl
    omega

/-- An expression is refused when more than 81 levels may be missing. -/
theorem refused_of_nested (hc : Namespaces.empty.requirement = .ok (c, n)) {segments : List Segment}
    (hread : Reads d c segments) (hcount : 81 < (segments.filter Segment.isOptional).length) :
    Regex.parse (Matcher.ofSegments (Dict.empty.insert controllerKey c) segments).source =
      .error .nesting := by
  obtain ⟨defaults, hread⟩ := hread
  obtain ⟨x, rfl, hshape, hformat, -⟩ := Template.shape_of_read hread
  obtain ⟨depth, hdepth, -, -, hspells⟩ := Matcher.spells_ofSegments (bare_of_requirement hc)
    (Template.Parts.splitFormat_segments hshape) hshape.required hshape.optional hformat
  rw [length_optional hshape] at hcount
  have hlength : ¬ (Matcher.templateExprs x.required x.optional x.format?).length ≤ 1 := by
    simp [Matcher.templateExprs]
  have hlimit : Syntax.depthLimit = 250 := rfl
  rw [hspells.parse (Matcher.nodup_groupNames ..), if_neg]
  unfold seqDepth Syntax.seqDepth
  rw [if_neg hlength]
  omega

/-- A declaration whose segments are read fails where its matcher does. -/
theorem compile_eq_error {defaults defaults' : Params} {segments : List Segment}
    (hd : d.requirements = .empty) (hmethods : d.methods = [])
    (hread : Template.read d.fullPath (normalizeDefaults d.defaults)
      (requiredNames (Dict.empty.insert controllerKey c) (normalizeDefaults d.defaults)) =
        .ok (segments, defaults))
    (hglob : dropGlobDefault defaults segments = .ok defaults')
    (hparse : Regex.parse
      (Matcher.ofSegments (Dict.empty.insert controllerKey c) segments).source = .error f) :
    compile d c = .error (.matcher d.fullPath f) := by
  have hmatcher := compile_eq_error_iff.2 hparse
  unfold compile
  rw [hd, hmethods, compileRequirements_empty]
  simp only [bind, Except.bind, Except.mapError, hread, hglob, hmatcher]
  rfl

/-- No more than 81 levels of a compiled route may be missing. -/
theorem length_optional_le (hd : d.requirements = .empty)
    (hc : Namespaces.empty.requirement = .ok (c, n)) {r : Route} (hr : compile d c = .ok r) :
    (r.segments.filter Segment.isOptional).length ≤ 81 := by
  obtain ⟨defaults, hrequirements, hread, -, hmatcher, -⟩ := compile_eq_ok hr
  rw [hd, compileRequirements_empty] at hrequirements
  by_contra hcount
  rw [← Except.ok.inj hrequirements] at hread hmatcher
  have hrefused := refused_of_nested hc ⟨defaults, hread⟩ (Nat.lt_of_not_le hcount)
  rw [compile_eq_error_iff.2 hrefused] at hmatcher
  cases hmatcher

/-- What compiling a declaration without requirements gives: its expression is refused within the
limits above only, and its route matches the paths that the template describes and no others. The
groups are bound to the texts of the path, and the parameters are what these stand for, over the
defaults. -/
theorem compile_bare (hd : d.requirements = .empty)
    (hc : Namespaces.empty.requirement = .ok (c, n)) :
    (∀ p f, compile d c = .error (.matcher p f) → ∃ segments, Reads d c segments ∧
      (f = .nesting ∧ 81 < (segments.filter Segment.isOptional).length ∨
        f = .size ∧ 10000 < d.fullPath.length)) ∧
    ∀ r, compile d c = .ok r → (r.segments.filter Segment.isOptional).length ≤ 81 ∧ ∀ t,
      ((r.match? t).isSome = true ↔ ∃ m σ, r.Describes m σ t) ∧
      ∀ params, r.match? t = some params → ∃ m σ, r.Describes m σ t ∧
        r.matcher.match? t = some (Slot.bound 0 (((r.shown m).flatMap Level.names).map σ)) ∧
        ∀ k, params.get? k =
          if k ∈ (r.shown m).flatMap Level.names then some (r.capturedValue k (σ k))
          else (r.defaults.get? k).filter fun v => !v.isNil := by
  refine ⟨fun p f h => ?_, fun r hr => ⟨length_optional_le hd hc hr, fun t => ?_⟩⟩
  · obtain ⟨segments, hread, hparse⟩ := matcher_of_compile hd h
    exact ⟨segments, hread, limits_of_refused hc hread hparse⟩
  · have h := settled_of_compiledBare ⟨hd, c, n, hc, hr⟩
    exact ⟨isSome_match_iff h, fun params hm => get?_of_match h hm⟩

end

/-- A controller and an action. -/
def actionsDeclaration : Declaration :=
  { Declaration.blank with path := ":controller/:action".toList }

/-- The path of an action is one that its route describes. -/
theorem compile_bare_actions : ∃ c n r, Namespaces.empty.requirement = .ok (c, n) ∧
    compile actionsDeclaration c = .ok r ∧ ∃ m σ, r.Describes m σ "/blog/show".toList := by
  have hmatch : ((bare? actionsDeclaration).any fun r =>
      (r.match? "/blog/show".toList).isSome) = true := by decide +kernel
  obtain ⟨r, hr, hsome⟩ := (Option.any_eq_true _ _).1 hmatch
  obtain ⟨hd, c, n, hc, hcompile⟩ := compiledBare_of_bare? (d := actionsDeclaration) rfl hr
  exact ⟨c, n, r, hc, hcompile, (((compile_bare hd hc).2 r hcompile).2 _).1.1 hsome⟩

/-- Parameters that may all be missing. -/
def nestedDeclaration (count : Nat) : Declaration :=
  let names := (List.range count).map fun i => 'a' :: (toString i).toList
  { Declaration.blank with
    path := names.flatMap fun name => '/' :: ':' :: name
    defaults := .ofList ((controllerKey, .str "c".toList) :: names.map fun name => (name, .nil)) }

/-- With 82 of them the expression is refused. -/
theorem compile_nested_refused : ∃ c n p, Namespaces.empty.requirement = .ok (c, n) ∧
    compile (nestedDeclaration 82) c = .error (.matcher p .nesting) := by
  obtain ⟨⟨c, n⟩, hc⟩ : ∃ x, Namespaces.empty.requirement = .ok x := by
    cases h : Namespaces.empty.requirement with
    | ok x => exact ⟨x, rfl⟩
    | error e =>
      have : Namespaces.empty.requirement.isOk = true := by decide +kernel
      rw [h] at this
      cases this
  have hread : ((Template.read (nestedDeclaration 82).fullPath
      (normalizeDefaults (nestedDeclaration 82).defaults) []).toOption.map fun x =>
        ((x.1.filter Segment.isOptional).length, (dropGlobDefault x.2 x.1).isOk)) =
          some (82, true) := by
    decide +kernel
  have hrequired : requiredNames (Dict.empty.insert controllerKey c)
      (normalizeDefaults (nestedDeclaration 82).defaults) = [] := by
    show [controllerKey].filter _ = []
    decide +kernel
  -- only the counts are evaluated; that the source is refused follows from the number of levels
  cases hok : Template.read (nestedDeclaration 82).fullPath
      (normalizeDefaults (nestedDeclaration 82).defaults) [] with
  | error e => rw [hok] at hread; cases hread
  | ok x =>
    obtain ⟨segments, defaults⟩ := x
    rw [hok] at hread
    obtain ⟨hcount, hglob⟩ := Prod.mk.inj (Option.some.inj hread)
    cases hdrop : dropGlobDefault defaults segments with
    | error e => simp only [hdrop] at hglob; cases hglob
    | ok defaults' =>
      rw [← hrequired] at hok
      have hparse := refused_of_nested hc ⟨defaults, hok⟩ (by simp only at hcount; omega)
      exact ⟨c, n, _, hc, compile_eq_error rfl rfl hok hdrop hparse⟩

end Route

end Routing
