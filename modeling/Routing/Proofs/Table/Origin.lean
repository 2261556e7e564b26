import Routing.Proofs.Route.Compile
import Routing.Proofs.Table.Draw

/-!
# Where routes come from

A table asks its namespaces for the requirement on controllers once and keeps the answer until the
namespaces change. To see that no route ever gets an answer that is out of date, the run of a table
is told together with the origins of its routes: the declaration of each and the namespaces that
were known when it was compiled.

* `Table.Origin`, `Table.Origin.Explains` — the origin of a route
* `Table.origins`, `Table.originsAfter` — the origins that a change and a row of changes leave
* `Table.Explained.perform` — a change leaves every route with its origin
* `Table.explained_after` — no route carries a requirement that was out of date
-/

namespace Routing

theorem Namespaces.kept_ofList [Properties] (names : List Text) : (ofList names).Kept := by
  rw [← forget_ofList]
  exact kept_forget _

namespace Route

/-- A route carries the requirement on controllers that it was compiled against, unless its
declaration has one of its own. -/
theorem controller_of_compile [Properties] {d : Declaration} {c : Requirement} {r : Route}
    (h : compile d c = .ok r) (hd : d.requirements.get? controllerKey = none) :
    r.requirements.get? controllerKey = some c := by
  obtain ⟨_, hrequirements, -⟩ := compile_eq_ok h
  rw [(get?_compileRequirements hrequirements controllerKey).1 hd, if_pos rfl]

end Route

namespace Table

section

variable [Properties] {t t' : Table} {d : Declaration} {ds : List Declaration} {r : Route}

/-! ## Origins -/

/-- Where a route of a table comes from. -/
inductive Origin where
  /-- It was compiled from a declaration while these namespaces were known. -/
  | compiled (d : Declaration) (known : Dict Unit)
  /-- It had been compiled elsewhere. -/
  | given (r : Route)
deriving DecidableEq

/-- The route has this origin. What was compiled has the requirement on controllers that is derived
from the namespaces of its moment, or one of its own. -/
def Origin.Explains : Origin → Route → Prop
  | compiled d known, r =>
    ∃ c, Requirement.compile (.plain (Namespaces.source ⟨known, none⟩)) = .ok c ∧
      Route.compile d c = .ok r ∧
      (d.requirements.get? controllerKey = none → r.requirements.get? controllerKey = some c)
  | given r', r => r = r'

/-- A route that is compiled under some namespaces is explained by them. -/
theorem Origin.explains_of_under {known : Dict Unit} (h : d.under known = .ok r) :
    (compiled d known).Explains r := by
  obtain ⟨c, hc, hr⟩ := Declaration.under_eq_ok.1 h
  exact ⟨c, hc, hr, Route.controller_of_compile hr⟩

/-- The origins of the routes that a change leaves when it succeeds. -/
def Change.origins (known : Dict Unit) (before : List Origin) : Change → List Origin
  | addNamespace _ | askController => before
  | add d => before ++ [.compiled d known]
  | append r => before ++ [.given r]
  | clear => []
  | draw ds => ds.map fun d => .compiled d known

/-- The origins of the routes that a change leaves; when it fails, they are those from before. -/
def origins (t : Table) (before : List Origin) (change : Change) : List Origin :=
  match (t.perform change).1 with
  | .ok () => change.origins t.namespaces.known before
  | .error _ => before

/-- The origins of the routes after a row of changes, each told at the moment of its change. -/
def originsAfter (t : Table) (before : List Origin) : List Change → List Origin
  | [] => before
  | change :: changes => (t.perform change).2.originsAfter (t.origins before change) changes

/-! ## Requirements of their moment -/

/-- The routes have these origins, and what is kept is not out of date. -/
structure Explained (t : Table) (before : List Origin) : Prop where
  kept : t.namespaces.Kept
  routes : List.Forall₂ Origin.Explains before t.routes

variable {before : List Origin}

/-- A change leaves every route with its origin. -/
theorem Explained.perform (h : t.Explained before) (change : Change) :
    (t.perform change).2.Explained (t.origins before change) := by
  refine ⟨kept_perform h.kept change, ?_⟩
  -- a change that fails leaves the routes and, with them, the origins
  cases hchange : t.perform change with
  | mk answer t' =>
    rw [origins, hchange]
    cases answer with
    | error e =>
      obtain ⟨n, -, rfl⟩ := perform_eq_error hchange
      exact h.routes
    | ok =>
      -- one case for each change; what it adds is explained by the namespaces at that time
      cases change with
      | addNamespace name =>
        cases hchange
        exact h.routes
      | askController =>
        rw [Table.perform] at hchange
        split at hchange
        · next hc =>
          obtain ⟨n, -, rfl⟩ := controllerRequirement_eq_ok hc
          cases hchange
          exact h.routes
        · cases hchange
      | add d =>
        obtain ⟨n, -, ⟨e, hadd⟩ | ⟨r, hadd⟩⟩ := t.add_cases d
        · rw [Table.perform, hadd] at hchange
          cases hchange
        · have hunder : d.under t.namespaces.known = .ok r := by rw [← add_answer h.kept, hadd]
          rw [Table.perform, hadd] at hchange
          cases hchange
          exact List.rel_append h.routes (.cons (Origin.explains_of_under hunder) .nil)
      | append r =>
        cases hchange
        exact List.rel_append h.routes (.cons rfl .nil)
      | clear =>
        cases hchange
        exact .nil
      | draw ds =>
        rw [Table.perform] at hchange
        split at hchange
        · next hdraw =>
          cases hchange
          rw [Change.origins, List.forall₂_map_left_iff]
          exact (forall₂_under_of_draw hdraw).imp fun _ _ => Origin.explains_of_under
        · cases hchange

/-- The routes stay explained through all changes. -/
theorem Explained.after (h : t.Explained before) (changes : List Change) :
    (t.after changes).Explained (t.originsAfter before changes) := by
  induction changes generalizing t before with
  | nil => exact h
  | cons change changes ih => exact ih (h.perform change)

/-- However a table was built, what its namespaces keep is the requirement that they would derive
anew, and a declaration that is added is compiled against it. Every route that was compiled in the
course has the requirement of the namespaces known at its moment, unless its declaration has one of
its own, and every other route is as it was given. A table made of namespaces that were asked before
is one that starts with `Change.askController`. -/
theorem explained_after (names : List Text) (changes : List Change) :
    let start := ofNamespaces (.ofList names)
    let t := start.after changes
    t.namespaces.Kept ∧
      (∀ d, (t.add d).1 = d.under t.namespaces.known) ∧
      List.Forall₂ Origin.Explains (start.originsAfter [] changes) t.routes := by
  intro start t
  have hstart : start.Explained [] := ⟨Namespaces.kept_ofList names, .nil⟩
  have hafter : t.Explained (start.originsAfter [] changes) := hstart.after changes
  exact ⟨hafter.kept, add_answer hafter.kept, hafter.routes⟩

end

/-- The index of any controller. -/
def anyIndex : Declaration := { Declaration.blank with path := ":controller".toList }

/-- A namespace that is registered counts for what is added next, and what was added before stays
as it is. -/
theorem explained_after_admin :
    let changes := [.askController, .add anyIndex, .addNamespace "/admin/".toList]
    let t := empty.after changes
    let known : Dict Unit := .ofList [("admin".toList, ())]
    t.routes.map (fun r => (r.requirements.get? controllerKey).map Requirement.source) =
        [some "[_a-zA-Z0-9]+".toList] ∧
      List.Forall₂ Origin.Explains [.compiled anyIndex .empty] t.routes ∧
      (t.add anyIndex).1 = anyIndex.under known := by
  intro changes t known
  obtain ⟨-, hadd, hroutes⟩ := explained_after [] changes
  have horigins : empty.originsAfter [] changes = [.compiled anyIndex .empty] := by decide +kernel
  have hknown : t.namespaces.known = known := by decide +kernel
  refine ⟨by decide +kernel, ?_, ?_⟩
  · rw [← horigins]
    exact hroutes
  · rw [← hknown]
    exact hadd anyIndex

end Table

end Routing
