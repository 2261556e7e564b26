import Routing.NamedRoute
import Routing.Proofs.Table.Change

/-!
# The index of names

The index of a table binds a name to a place among the routes. Routes are only ever appended to a
table, or all of them give way at once, and the index goes with them. So a name stands for the last
route that bears it, whatever was registered, refused, emptied or drawn before.

* `Table.lastPlace` — the place of the last route of a name
* `Table.Indexed`, `Table.indexed_after` — the index binds each name to this place
* `Table.Indexed.named?`, `Table.Indexed.mem_names`, `Table.Indexed.handle?` — looking names up
* `Table.names_after` — all that holds of the names of a table
-/

namespace Routing

namespace Dict

variable {α : Type}

theorem pairwise_keys (d : Dict α) : d.keys.Pairwise (· < ·) :=
  List.pairwise_map.2 d.ordered

end Dict

namespace Table

section

variable [Properties] {t t' : Table} {name : Text} {routes : List Route} {r : Route}

/-! ## The last route of a name -/

/-- The place of the last route of a name. -/
def lastPlace (name : Text) (routes : List Route) : Option Nat :=
  (routes.zipIdx.filter fun p => p.1.name = some name).getLast?.map Prod.snd

/-- The last place of a name is the new one when the new route has that name. -/
theorem lastPlace_append (name : Text) (routes : List Route) (r : Route) :
    lastPlace name (routes ++ [r]) =
      if r.name = some name then some routes.length else lastPlace name routes := by
  rw [lastPlace, List.zipIdx_append, List.filter_append, Nat.zero_add, List.zipIdx_singleton,
    List.filter_singleton, lastPlace]
  by_cases hr : r.name = some name
  · simp [hr]
  · simp [hr]

/-- At this place stands the last of the routes that bear the name. -/
theorem getElem?_lastPlace (name : Text) (routes : List Route) :
    ((lastPlace name routes).bind fun i => routes[i]?) =
      (routes.filter fun r => r.name = some name).getLast? := by
  have hfilter : (routes.filter fun r => r.name = some name) =
      (routes.zipIdx.filter fun p => p.1.name = some name).map Prod.fst := by
    conv_lhs => rw [← List.zipIdx_map_fst 0 routes, List.filter_map]
    rfl
  rw [hfilter, List.getLast?_map, lastPlace]
  cases hlast : (routes.zipIdx.filter fun p => p.1.name = some name).getLast? with
  | none => rfl
  | some p =>
    have hmem := (List.mem_filter.1 (List.mem_of_getLast? hlast)).1
    exact List.mem_zipIdx_iff_getElem?.1 hmem

/-! ## The index -/

/-- The index binds each name to the place of its last route. -/
def Indexed (t : Table) : Prop :=
  ∀ name, t.index.get? name = lastPlace name t.routes

theorem indexed_ofNamespaces (n : Namespaces) : (ofNamespaces n).Indexed := fun _ => rfl

theorem Indexed.withNamespaces (h : t.Indexed) (n : Namespaces) : (t.withNamespaces n).Indexed := h

/-- A table stays indexed when a route is appended. -/
theorem Indexed.append (h : t.Indexed) (r : Route) : (t.append r).Indexed := by
  intro name
  rw [routes_append, lastPlace_append, Table.append]
  -- a route without a name leaves the index, and any other takes its name over
  cases hr : r.name with
  | none => simpa using h name
  | some name' => simp [h name]

theorem Indexed.foldl_append (h : t.Indexed) (routes : List Route) :
    (routes.foldl Table.append t).Indexed := by
  induction routes generalizing t with
  | nil => exact h
  | cons r routes ih => exact ih (h.append r)

/-- A change keeps the index in step with the routes. -/
theorem Indexed.perform (h : t.Indexed) (change : Change) : (t.perform change).2.Indexed := by
  have hleaves := t.leaves_perform change
  generalize (t.perform change).2 = t' at hleaves
  cases hleaves with
  | same n => exact h.withNamespaces n
  | more n r => exact (h.withNamespaces n).append r
  | anew n routes => exact (indexed_ofNamespaces n).foldl_append routes

theorem indexed_after (n : Namespaces) (changes : List Change) :
    ((ofNamespaces n).after changes).Indexed :=
  after_induction (fun _ change h => h.perform change) (indexed_ofNamespaces n) changes

/-! ## Looking names up -/

/-- A name stands for the last route that has it. -/
theorem Indexed.named? (h : t.Indexed) (name : Text) :
    t.named? name = (t.routes.filter fun r => r.name = some name).getLast? := by
  rw [Table.named?, h name]
  exact getElem?_lastPlace name t.routes

/-- A name stands for no route when none has it. -/
theorem Indexed.named?_eq_none (h : t.Indexed) :
    t.named? name = none ↔ ∀ r ∈ t.routes, r.name ≠ some name := by
  rw [h.named?, List.getLast?_eq_none_iff, List.filter_eq_nil_iff]
  simp

/-- A name in the index is that of the route it stands for. -/
theorem Indexed.name_of_named? (h : t.Indexed) (hr : t.named? name = some r) :
    r.name = some name := by
  rw [h.named?] at hr
  exact of_decide_eq_true (List.mem_filter.1 (List.mem_of_getLast? hr)).2

/-- The names of a table are those that stand for a route. -/
theorem Indexed.isSome_named? (h : t.Indexed) :
    (t.named? name).isSome = true ↔ name ∈ t.names := by
  rw [names, Dict.mem_keys, Table.named?]
  cases hi : t.index.get? name with
  | none => simp
  | some i =>
    -- the place that is bound is one of a route
    have hsome : (t.named? name).isSome = true := by
      rw [h.named?, ← getElem?_lastPlace, ← h name, hi]
      rw [h name, lastPlace] at hi
      obtain ⟨p, hp, rfl⟩ := Option.map_eq_some_iff.1 hi
      have hmem := (List.mem_filter.1 (List.mem_of_getLast? hp)).1
      simp [List.mem_zipIdx_iff_getElem?.1 hmem]
    rw [Table.named?, hi] at hsome
    simpa using hsome

theorem Indexed.mem_names (h : t.Indexed) :
    name ∈ t.names ↔ ∃ r ∈ t.routes, r.name = some name := by
  rw [← h.isSome_named?, ← Option.ne_none_iff_isSome, Ne, h.named?_eq_none]
  simp

/-- A name has the handle of the route that it stands for. -/
theorem Indexed.handle? (h : t.Indexed) (name : Text) :
    t.handle? name = (t.named? name).map fun r => ⟨name, r⟩ := by
  rw [Table.handle?]
  cases hr : t.named? name with
  | none => rfl
  | some r =>
    have hname := h.name_of_named? hr
    simp [hname]

/-- There is one handle for each name, in the order of the names. -/
theorem Indexed.names_handles (h : t.Indexed) : t.handles.map NamedRoute.name = t.names := by
  have hhandle : ∀ name ∈ t.names, (t.handle? name).map NamedRoute.name = some name := by
    intro name hname
    obtain ⟨r, hr⟩ := Option.isSome_iff_exists.1 (h.isSome_named?.2 hname)
    rw [h.handle?, hr]
    rfl
  rw [handles, List.map_filterMap, List.filterMap_congr hhandle, List.filterMap_some]

/-- A handle is on the route that its name stands for. -/
theorem Indexed.route_of_mem_handles (h : t.Indexed) {handle : NamedRoute}
    (hhandle : handle ∈ t.handles) : t.named? handle.name = some handle.route := by
  obtain ⟨name, -, hname⟩ := List.mem_filterMap.1 hhandle
  rw [h.handle?] at hname
  obtain ⟨r, hr, rfl⟩ := Option.map_eq_some_iff.1 hname
  exact hr

/-! ## Tables that were built -/

/-- However a table was built, a name stands for the last of its routes that bear it, and for none
when no route does; its names are those of its routes, in order and each once; and there is one
handle for each of them, on the route it stands for. A change that fails leaves the routes, the
index and all that can be asked of the namespaces as they are; a namespace that is not new leaves
the whole table. -/
theorem names_after (n : Namespaces) (changes : List Change) :
    let t := (ofNamespaces n).after changes
    (∀ name, t.named? name = (t.routes.filter fun r => r.name = some name).getLast?) ∧
      (∀ name, t.named? name = none ↔ ∀ r ∈ t.routes, r.name ≠ some name) ∧
      t.names.Pairwise (· < ·) ∧
      (∀ name, name ∈ t.names ↔ ∃ r ∈ t.routes, r.name = some name) ∧
      t.handles.map NamedRoute.name = t.names ∧
      (∀ handle ∈ t.handles, t.named? handle.name = some handle.route) ∧
      (∀ change e t', t.perform change = (.error e, t') →
        t'.routes = t.routes ∧ t'.index = t.index ∧ t.namespaces.Agree t'.namespaces) ∧
      ∀ name, (t.addNamespace name).1 = false → (t.addNamespace name).2 = t := by
  intro t
  have hindexed : t.Indexed := indexed_after n changes
  refine ⟨hindexed.named?, fun name => hindexed.named?_eq_none, Dict.pairwise_keys t.index,
    fun name => hindexed.mem_names, hindexed.names_handles,
    fun handle => hindexed.route_of_mem_handles, ?_, ?_⟩
  -- a change that fails may have compiled the requirement on controllers, and nothing else
  · intro change e t' herror
    obtain ⟨n', hn', rfl⟩ := perform_eq_error herror
    exact ⟨rfl, rfl, hn'⟩
  · intro name hold
    show t.withNamespaces (t.namespaces.insert name).2 = t
    rw [Namespaces.insert_of_known hold]
    rfl

end

/-- A greeting under a name. -/
def greeting (path name : String) : Declaration :=
  { Declaration.blank with path := path.toList, name := some name.toList }

/-- A greeting that is refused. -/
def anchoredGreeting : Declaration :=
  { greeting "hi/:id" "hello" with requirements := .ofList [("id".toList, .plain "^a".toList)] }

/-- A name that is registered again stands for the later route, and a list that is refused in the
middle does not change that. -/
theorem names_after_greeting :
    let changes := [.add (greeting "hello" "hello"), .add (greeting "bye" "bye"),
      .add anchoredGreeting, .add (greeting "hi" "hello"),
      .draw [greeting "hey" "hello", anchoredGreeting]]
    let t := (ofNamespaces .empty).after changes
    t.routes.map Route.pattern = ["hello", "bye", "hi"].map String.toList ∧
      t.handles.map NamedRoute.name = ["bye", "hello"].map String.toList ∧
      (t.named? "hello".toList).map Route.pattern = some "hi".toList ∧
      t.named? "hey".toList = none ∧
      (t.perform (.add anchoredGreeting)).2.routes = t.routes := by
  intro changes t
  obtain ⟨hnamed, hnone, -, -, hhandles, -, hfails, -⟩ := names_after .empty changes
  refine ⟨by decide +kernel, ?_, ?_, ?_, ?_⟩
  · rw [hhandles]
    decide +kernel
  · rw [hnamed]
    decide +kernel
  · rw [hnone]
    decide +kernel
  · cases h : t.perform (.add anchoredGreeting) with
    | mk answer t' =>
      cases answer with
      | error e => exact (hfails _ e t' h).1
      | ok =>
        have hanswer : ((t.perform (.add anchoredGreeting)).1.toOption.isSome) = false := by
          decide +kernel
        rw [h] at hanswer
        cases hanswer

end Table

end Routing
