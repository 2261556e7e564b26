import Routing.Proofs.Namespaces
import Routing.Proofs.Route.Compile
import Routing.Table

/-!
# Routes without requirements

What is settled about a route that was compiled from a declaration without requirements while no
namespace was known: its only requirement is that on bare controller names, its template has the
shape of one that was read, and its expression is that of the template.

* `Route.CompiledBare` — compiled in that way
* `Route.Settled`, `Route.settled_of_compiledBare` — what is settled
-/

namespace Routing

open Regex

/-! ## Compilation -/

variable [Properties]

namespace Route

/-- The route is compiled from a declaration without requirements, while no namespace is known. -/
def CompiledBare (d : Declaration) (r : Route) : Prop :=
  d.requirements = .empty ∧ ∃ c n, Namespaces.empty.requirement = .ok (c, n) ∧ compile d c = .ok r

/-- The route of a declaration, while no namespace is known. -/
def bare? (d : Declaration) : Option Route := do
  let (c, _) ← Namespaces.empty.requirement.toOption
  (compile d c).toOption

/-- A route that is compiled bare comes from its declaration and the requirement of no controllers.
-/
theorem exists_of_bare? {d : Declaration} {r : Route} (h : bare? d = some r) :
    ∃ c n, Namespaces.empty.requirement = .ok (c, n) ∧ compile d c = .ok r := by
  obtain ⟨⟨c, n⟩, hc, h⟩ := Option.bind_eq_some_iff.1 h
  refine ⟨c, n, ?_, ?_⟩
  · cases hn : Namespaces.empty.requirement with
    | error e => rw [hn] at hc; cases hc
    | ok p => rw [hn] at hc; cases hc; rfl
  · change (compile d c).toOption = some r at h
    cases hr : compile d c with
    | error e => rw [hr] at h; cases h
    | ok r' => rw [hr] at h; cases h; rfl

theorem compiledBare_of_bare? {d : Declaration} {r : Route} (hd : d.requirements = .empty)
    (h : bare? d = some r) : CompiledBare d r :=
  ⟨hd, exists_of_bare? h⟩

/-- The requirement that a declaration without any is compiled with. -/
theorem compileRequirements_empty (c : Requirement) :
    compileRequirements .empty c = .ok (Dict.empty.insert controllerKey c) := rfl

/-- What is settled about a route without requirements. -/
structure Settled (r : Route) : Prop extends Compiled r where
  bare : Bare r.requirements
  accepts : ∀ name c, r.requirements.get? name = some c →
    name = controllerKey ∧ ∀ glob t, c.accepts t = true ↔ Slot.Fits controllerKey glob t
  controller : (r.requirements.get? controllerKey).isSome

/-- The requirement on controllers alone. -/
theorem bare_of_requirement {c : Requirement} {n : Namespaces}
    (hc : Namespaces.empty.requirement = .ok (c, n)) :
    Bare (Dict.empty.insert controllerKey c) := by
  intro key
  rw [Dict.get?_insert, Dict.get?_empty]
  by_cases hkey : controllerKey = key
  · rw [if_pos hkey, if_pos hkey.symm, Option.map_some, Namespaces.fragment_eq hc]
  · rw [if_neg hkey, if_neg (Ne.symm hkey), Option.map_none]

/-- What compiling without requirements settles. -/
theorem settled_of_compiledBare {d : Declaration} {r : Route} (h : CompiledBare d r) :
    r.Settled := by
  obtain ⟨hd, c, n, hc, hr⟩ := h
  obtain ⟨_, hreq, -⟩ := compile_eq_ok hr
  rw [hd, compileRequirements_empty] at hreq
  have hreq := (Except.ok.inj hreq).symm
  have hget (name : Text) :
      r.requirements.get? name = if controllerKey = name then some c else none := by
    rw [hreq, Dict.get?_insert, Dict.get?_empty]
  refine ⟨compiled_of_compile hr, hreq ▸ bare_of_requirement hc, ?_, ?_⟩
  · intro name c' hc'
    rw [hget] at hc'
    split at hc'
    · next hname =>
      cases hc'
      exact ⟨hname.symm, Namespaces.accepts_iff hc⟩
    · cases hc'
  · rw [hget, if_pos rfl, Option.isSome_some]

end Route

end Routing
