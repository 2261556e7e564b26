import Routing.Proofs.Generation.Agreement
import Routing.Proofs.Generation.Intent

/-!
# Selected routes

A route that is selected by its name is rendered with its defaults under the recalled parameters. It
falls back on its defaults in any case, so they change none of its texts; and they can only help to
meet the defaults that it insists on. So every link that a route has by itself it also has under its
name, whatever other routes stand before it in a table.

* `Rendering.value?_overDefaults` — a route that falls back on its defaults once or twice
* `Route.link?_overDefaults` — a link stays the same when the defaults are recalled
* `Table.generate_of_single` — a link of a route by itself is the link of its name
-/

namespace Routing

/-- Recalled defaults give a parameter the value that it falls back on in any case. -/
theorem Rendering.value?_overDefaults [Properties] (r : Route) (options recalled : Params)
    (name : Text) :
    value? ⟨r, (r.defaults.overlay recalled).overlay options⟩ name =
      value? ⟨r, recalled.overlay options⟩ name := by
  rw [value?, value?, Params.given?, Params.given?, Params.given?]
  simp only [Dict.get?_overlay, ← Option.or_assoc]
  cases (options.get? name).or (recalled.get? name) with
  | none => simp
  | some v => rfl

namespace Route

variable [Properties] {r : Route} {options recalled : Params} {l : Link}

/-- Recalled defaults meet those that the route insists on, where nothing else is given. -/
theorem meetsDefaults_overDefaults (hr : r.Compiled)
    (h : r.meetsDefaults (recalled.overlay options) = true) :
    r.meetsDefaults ((r.defaults.overlay recalled).overlay options) = true := by
  rw [meetsDefaults_iff] at h ⊢
  intro name d hd
  have hmet := h name d hd
  simp only [Dict.get?_overlay, ← Option.or_assoc] at hmet ⊢
  -- a default that is given or recalled was met before, and any other is now its own value
  cases hgiven : (options.get? name).or (recalled.get? name) with
  | some v =>
    rw [hgiven] at hmet
    exact hmet
  | none =>
    rw [hr.requiredDefaults, Dict.get?_filter, Option.filter_eq_some_iff] at hd
    rw [Option.none_or, hd.1]
    rfl

/-- A link stays the same when the defaults of the route are recalled under it. -/
theorem link?_overDefaults (hr : r.Compiled) (h : r.link? options recalled = some l) :
    r.link? options (r.defaults.overlay recalled) = some l := by
  obtain ⟨_, hrendered, -⟩ := Option.map_eq_some_iff.1 h
  have hmeets := (isSome_render?.1 (by rw [hrendered]; rfl)).1
  rw [← h]
  apply link?_eq_of_agrees
  · rw [hmeets, meetsDefaults_overDefaults hr hmeets]
  · intro name _
    exact .of_value? (Rendering.value?_overDefaults r options recalled name)

end Route

namespace Table

section

variable [Properties] {t single : Table} {r : Route} {name : Text} {options : Params} {l : Link}

/-- A table of one route has the links of the route. -/
theorem link?_of_single (hsingle : single.routes = [r])
    (h : single.generateAny options .empty = .ok l) :
    r.link? (Intent.normalize none ⟨options, .empty⟩).options
      (Intent.normalize none ⟨options, .empty⟩).recalled = some l := by
  rw [generateAny, hsingle] at h
  split at h
  · next hlink =>
    cases h
    rw [firstLink?, firstLink?, Option.or_none] at hlink
    split at hlink
    · exact hlink
    · cases hlink
  · cases h

/-- Without recalled parameters, a link of a route by itself is also the link of the route where it
is selected by its name, as a name or as an option, among whatever other routes. -/
theorem generate_of_single (ht : t.Compiled) (hname : t.named? name = some r)
    (hsingle : single.routes = [r]) (hselector : options.get? Reserved.useRoute = none)
    (h : single.generate options .empty = .ok l) :
    t.generateNamed name options .empty = .ok l ∧
      t.generate (options.insert Reserved.useRoute (.str name)) .empty = .ok l := by
  obtain ⟨d, c, hcompile⟩ := ht r (mem_of_named? hname)
  have hselected : t.generateSelected name (Reserved.strip options) .empty = .ok l := by
    rw [generate, Params.givenParam?, Params.given?, hselector] at h
    have hlink := link?_of_single hsingle h
    rw [Intent.normalize_empty, ← Intent.normalize_empty (some r)] at hlink
    rw [generateSelected, hname]
    simp only
    rw [Route.link?_overDefaults (Route.compiled_of_compile hcompile) hlink]
  refine ⟨hselected, ?_⟩
  -- the name of the route is a reserved key
  have hstrip : Reserved.strip (options.insert Reserved.useRoute (.str name)) =
      Reserved.strip options := by
    apply Dict.ext_get?
    intro k
    rw [Reserved.get?_strip, Reserved.get?_strip, Dict.get?_insert]
    by_cases hk : Reserved.useRoute = k
    · rw [← hk, if_pos (by decide), if_pos (by decide)]
    · rw [if_neg hk]
  rw [generate, Params.givenParam?, Params.given?, Dict.get?_insert, if_pos rfl, hstrip]
  exact hselected

end

/-- The articles of a year, behind routes for all controllers. -/
def archiveDeclarations : List Declaration :=
  [{ Declaration.blank with path := ":controller/:action/:id".toList },
    { Declaration.blank with
      name := some "archive".toList
      path := "archive/:year".toList
      defaults := .ofList [(controllerKey, .str "blog".toList),
        (actionKey, .str "by_date".toList), ("year".toList, .nil)] }]

/-- Without the name the first route is in the way. -/
theorem generate_of_single_archive :
    let options : Params := .ofList [(controllerKey, .str "blog".toList),
      (actionKey, .str "by_date".toList), ("year".toList, .int 2005)]
    ∃ t single, empty.draw archiveDeclarations = .ok t ∧
      empty.draw (archiveDeclarations.drop 1) = .ok single ∧
      single.generate options .empty = .ok ⟨"/archive/2005".toList, .empty⟩ ∧
      t.generate options .empty =
        .ok ⟨"/blog/by_date".toList, .ofList [("year".toList, .int 2005)]⟩ ∧
      t.generateNamed "archive".toList options .empty = .ok ⟨"/archive/2005".toList, .empty⟩ := by
  intro options
  let t : Table := (empty.draw archiveDeclarations).toOption.getD empty
  let single : Table := (empty.draw (archiveDeclarations.drop 1)).toOption.getD empty
  have hdraw : empty.draw archiveDeclarations = .ok t := by decide +kernel
  have hlink : single.generate options .empty = .ok ⟨"/archive/2005".toList, .empty⟩ := by
    decide +kernel
  have hnamed : ∃ r, t.named? "archive".toList = some r ∧ single.routes = [r] := by
    have hsome : (t.named? "archive".toList).isSome = true ∧
        (t.named? "archive".toList).toList = single.routes := by decide +kernel
    obtain ⟨r, hr⟩ := Option.isSome_iff_exists.1 hsome.1
    exact ⟨r, hr, by rw [← hsome.2, hr]; rfl⟩
  obtain ⟨r, hname, hsingle⟩ := hnamed
  refine ⟨t, single, hdraw, by decide +kernel, hlink, by decide +kernel, ?_⟩
  exact (generate_of_single (compiled_of_draw hdraw) hname hsingle rfl hlink).1

end Table

end Routing
