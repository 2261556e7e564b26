import Routing.Generation
import Routing.Proofs.Route.Rendering
import Routing.Proofs.Table

/-!
# What a link holds

* `Route.Linked` — the path of a link and the options that it leaves over
* `Table.firstLink?_eq_some` — the route behind a link
* `Table.generateAny_eq_ok`, `Table.generateSelected_eq_ok` — what is asked of this route
-/

namespace Routing

variable [Properties]

namespace Route

variable {r : Route} {options recalled : Params} {l : Link} {k : Text} {v : Value}

/-- The rendering behind a link. -/
def rendering (r : Route) (options recalled : Params) : Rendering :=
  ⟨r, recalled.overlay options⟩

/-- The link spells the first `shown` levels of the tail, and the options that the first `used` ones
have not consumed are left over, but for those that repeat their default or do not count as
given. -/
structure Linked (r : Route) (options recalled : Params) (l : Link) (shown used : Nat) : Prop where
  cut : (r.rendering options recalled).Cut options r.levels shown used
  path : l.path = Level.path (r.rendering options recalled).text (r.shown shown)
  captures : ∀ level ∈ r.shown used, ∀ name glob, Slot.capture name glob ∈ level.slots →
    ((r.rendering options recalled).capture? name glob).isSome = true
  extras : ∀ k, l.extras.get? k = if k ∈ (r.shown used).flatMap Level.names then none
    else (options.get? k).filter fun v =>
      v.isTruthy && (r.defaults.get? k).all fun d => !d.sameParam v

/-- A link comes from a path, with what it leaves over. -/
theorem linked_of_link? (h : r.link? options recalled = some l) :
    ∃ shown used, r.Linked options recalled l shown used := by
  obtain ⟨⟨path, pending⟩, hr, rfl⟩ := Option.map_eq_some_iff.1 h
  obtain ⟨shown, used, hcut, hpath, hpending⟩ := render?_eq_some hr
  refine ⟨shown, used, hcut, hpath, captures_of_render? hr hcut, fun k => ?_⟩
  rw [Dict.get?_filter, hpending]
  split
  · rfl
  · cases options.get? k with
    | none => rfl
    | some v =>
      rw [Option.filter_some, Option.filter_some]
      split
      · next hall => simp [hall, Option.filter_some]
      · next hall => simp [hall]

/-- A value that counts is the one rendered. -/
theorem value?_eq_some (h : (recalled.overlay options).get? k = some v) (hv : v.isTruthy = true) :
    (r.rendering options recalled).value? k = some v := by
  rw [Rendering.value?, Params.given?]
  show (((recalled.overlay options).get? k).filter Value.isTruthy).or _ = _
  rw [h, Option.filter_some, if_pos hv]
  rfl

/-- An option that the path consumes is in it or repeats its default. -/
theorem Linked.consumed {shown used : Nat} (h : r.Linked options recalled l shown used)
    (hmerged : (recalled.overlay options).get? k = some v) (hv : v.isTruthy = true)
    (hk : k ∈ (r.shown used).flatMap Level.names) :
    ∃ raw, v.param? = some raw ∧
      (r.rendering options recalled).text k = Rendering.escaped k v raw ∧
      (k ∈ (r.shown shown).flatMap Level.names ∨
        Value.paramOf? (r.defaults.get? k) = some raw) := by
  obtain ⟨level, hlevel, glob, hc⟩ := Level.mem_flatMap_names.1 hk
  obtain ⟨t, ht⟩ := Option.isSome_iff_exists.1 (h.captures level hlevel k glob hc)
  have hvalue := value?_eq_some (r := r) hmerged hv
  obtain ⟨w, raw, hw, hraw, -, rfl⟩ := Rendering.capture?_eq_some.1 ht
  rw [hvalue] at hw
  cases hw
  refine ⟨raw, hraw, (Rendering.text_of_capture? ht).symm, ?_⟩
  have hname : k ∈ level.names := Level.mem_names.2 ⟨glob, hc⟩
  -- it is shown, or the level repeats its default and stays hidden
  by_cases hshown : level ∈ r.shown shown
  · exact .inl (List.mem_flatMap.2 ⟨level, hshown, hname⟩)
  · right
    have hhidden := (mem_drop_of_not_shown hlevel hshown).2
    obtain ⟨d, hd, heq⟩ := Rendering.default_of_isDefault (h.cut.repeated level hhidden) hname
    rw [hvalue] at heq
    change r.defaults.get? k = some d at hd
    rw [hd]
    exact heq.symm.trans hraw

end Route

namespace Table

/-- The first significant route that can be rendered gives the link. -/
theorem firstLink?_eq_some {x : Intent} {routes : List Route} {l : Link}
    (h : firstLink? x routes = some l) :
    ∃ before r after, routes = before ++ r :: after ∧
      (∀ r' ∈ before, r'.isSignificant = true → r'.link? x.options x.recalled = none) ∧
      r.isSignificant = true ∧ r.link? x.options x.recalled = some l := by
  -- on the routes, of which those that are not significant are passed over
  induction routes with
  | nil => cases h
  | cons r routes ih =>
    rw [firstLink?] at h
    by_cases hsig : r.isSignificant = true
    · rw [if_pos hsig] at h
      cases hl : r.link? x.options x.recalled with
      | some l' =>
        rw [hl] at h
        cases h
        exact ⟨[], r, routes, rfl, by simp, hsig, hl⟩
      | none =>
        rw [hl] at h
        obtain ⟨before, r', after, rfl, hbefore, hr'⟩ := ih h
        exact ⟨r :: before, r', after, rfl, List.forall_mem_cons.2 ⟨fun _ => hl, hbefore⟩, hr'⟩
    · rw [if_neg hsig] at h
      obtain ⟨before, r', after, rfl, hbefore, hr'⟩ := ih h
      exact ⟨r :: before, r', after, rfl,
        List.forall_mem_cons.2 ⟨fun h => absurd h hsig, hbefore⟩, hr'⟩

variable {t : Table} {options recalled : Params} {l : Link} {name : Text} {r : Route}

/-- A link for options that select no route is that of some route. -/
theorem generateAny_eq_ok (h : t.generateAny options recalled = .ok l) :
    ∃ r ∈ t.routes, ∃ lower,
      r.link? (Intent.normalize none ⟨options, recalled⟩).options lower = some l := by
  rw [generateAny] at h
  split at h
  · next hlink =>
    cases h
    obtain ⟨before, r, after, hroutes, -, -, hr⟩ := firstLink?_eq_some hlink
    refine ⟨r, ?_, _, hr⟩
    rw [hroutes]
    exact List.mem_append_right _ List.mem_cons_self
  · cases h

/-- A link for a selected route is that of the route. -/
theorem generateSelected_eq_ok (h : t.generateSelected name options recalled = .ok l) :
    ∃ r, t.named? name = some r ∧ ∃ lower,
      r.link? (Intent.normalize (some r) ⟨options, recalled⟩).options lower = some l := by
  rw [generateSelected] at h
  split at h
  · cases h
  · next r hr =>
    simp only at h
    split at h
    · next hlink =>
      cases h
      exact ⟨r, hr, _, hlink⟩
    · cases h

/-- Every link is that of some route. -/
theorem generate_eq_ok (h : t.generate options recalled = .ok l) :
    ∃ r ∈ t.routes, ∃ upper lower, r.link? upper lower = some l := by
  rw [generate] at h
  split at h
  · obtain ⟨r, hr, lower, hlink⟩ := generateSelected_eq_ok h
    exact ⟨r, mem_of_named? hr, _, lower, hlink⟩
  · obtain ⟨r, hr, lower, hlink⟩ := generateAny_eq_ok h
    exact ⟨r, hr, _, lower, hlink⟩

end Table

end Routing
