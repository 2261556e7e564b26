import Mathlib.Data.List.Forall2
import Routing.Proofs.Steps
import Routing.Table

/-!
# Tables of declarations

A table that is drawn compiles every declaration, in order, against the requirement on controllers
of its namespaces. The requirement is compiled once and kept.

* `Namespaces.Kept` — what is kept is the requirement of the namespaces
* `Table.add_eq_ok` — one declaration
* `Table.draw_eq_ok`, `Table.declared_of_draw` — the routes of a table that was drawn
* `Table.Compiled` — every route comes from a declaration
-/

namespace Routing

variable [Properties]

/-- The requirement that is kept, if any, is that of the namespaces. -/
def Namespaces.Kept (n : Namespaces) : Prop :=
  ∀ c, n.kept = some c → Requirement.compile (.plain n.source) = .ok c

/-- With no requirement kept, nothing is kept wrongly. -/
theorem Namespaces.kept_forget (n : Namespaces) : n.forget.Kept := by
  intro c hc
  cases hc

/-- The requirement on controllers is compiled, or it has been kept. -/
theorem Namespaces.requirement_eq_ok {n n' : Namespaces} {c : Requirement} (hkept : n.Kept)
    (h : n.requirement = .ok (c, n')) :
    Requirement.compile (.plain n.source) = .ok c ∧ n'.known = n.known ∧ n'.Kept := by
  rw [requirement] at h
  split at h
  · next hc =>
    cases h
    exact ⟨hkept _ hc, rfl, hkept⟩
  · obtain ⟨c', hc, h⟩ := bind_eq_ok.1 h
    cases h
    refine ⟨hc, rfl, ?_⟩
    intro c' hc'
    cases hc'
    exact hc

/-- The source depends on the known namespaces alone. -/
theorem Namespaces.source_congr {n n' : Namespaces} (h : n'.known = n.known) :
    n'.source = n.source := by
  rw [source, source, names, names, h]

namespace Table

variable {t t' : Table} {d : Declaration} {ds : List Declaration} {r : Route}

/-- A declaration that is added is compiled, and its route stands last. -/
theorem add_eq_ok (hkept : t.namespaces.Kept) (h : t.add d = (.ok r, t')) :
    (∃ c, Requirement.compile (.plain t.namespaces.source) = .ok c ∧ Route.compile d c = .ok r) ∧
      t'.routes = t.routes ++ [r] ∧ t'.namespaces.known = t.namespaces.known ∧
      t'.namespaces.Kept := by
  rw [add] at h
  split at h
  · cases h
  · next c t₁ hc =>
    obtain ⟨⟨c', n⟩, hn, hc⟩ := bind_eq_ok.1 hc
    cases hc
    obtain ⟨hcompile, hknown, hkept'⟩ :=
      Namespaces.requirement_eq_ok hkept (mapError_eq_ok.1 hn)
    split at h
    · cases h
    · next hr =>
      cases h
      exact ⟨⟨_, hcompile, hr⟩, rfl, hknown, hkept'⟩

/-- Declarations that are added are compiled in order. -/
theorem addAll_eq_ok (hkept : t.namespaces.Kept) (h : t.addAll ds = .ok t') :
    ∃ routes, t'.routes = t.routes ++ routes ∧
      List.Forall₂ (fun d r => ∃ c, Requirement.compile (.plain t.namespaces.source) = .ok c ∧
        Route.compile d c = .ok r) ds routes := by
  -- on the declarations; each one leaves the known namespaces as they are
  induction ds generalizing t with
  | nil =>
    cases h
    exact ⟨[], (List.append_nil _).symm, .nil⟩
  | cons d ds ih =>
    rw [addAll] at h
    split at h
    · cases h
    · next r t₁ hadd =>
      obtain ⟨hr, hroutes, hknown, hkept₁⟩ := add_eq_ok hkept hadd
      obtain ⟨routes, hroutes', hall⟩ := ih hkept₁ h
      rw [Namespaces.source_congr hknown] at hall
      refine ⟨r :: routes, ?_, .cons hr hall⟩
      rw [hroutes', hroutes, List.append_assoc]
      rfl

/-- The routes of a table that is drawn are those of the declarations, in order, compiled against
the requirement on controllers of its namespaces. -/
theorem draw_eq_ok (h : t.draw ds = .ok t') :
    List.Forall₂ (fun d r => ∃ c, Requirement.compile (.plain t.namespaces.source) = .ok c ∧
      Route.compile d c = .ok r) ds t'.routes := by
  obtain ⟨routes, hroutes, hall⟩ := addAll_eq_ok t.namespaces.kept_forget h
  rw [hroutes]
  exact hall

/-- A declaration that compiles can be drawn. -/
theorem exists_draw_singleton {n : Namespaces} {c : Requirement}
    (hc : Requirement.compile (.plain n.source) = .ok c) (hr : Route.compile d c = .ok r) :
    ∃ t, (ofNamespaces n).draw [d] = .ok t := by
  have hsource : n.forget.source = n.source := rfl
  have hrequirement : (ofNamespaces n.forget).controllerRequirement =
      .ok (c, ofNamespaces ⟨n.known, some c⟩) := by
    rw [controllerRequirement, ofNamespaces, Namespaces.requirement, hsource, hc]
    rfl
  refine ⟨(ofNamespaces ⟨n.known, some c⟩).append r, ?_⟩
  show (ofNamespaces n.forget).addAll [d] = _
  rw [addAll, add, hrequirement]
  simp only [hr]
  rfl

/-- A route of a table that is drawn comes from one of the declarations. -/
theorem declared_of_draw (h : t.draw ds = .ok t') (hr : r ∈ t'.routes) :
    ∃ d ∈ ds, ∃ c, Requirement.compile (.plain t.namespaces.source) = .ok c ∧
      Route.compile d c = .ok r := by
  have hall := draw_eq_ok h
  generalize t'.routes = routes at hall hr
  clear h
  induction hall with
  | nil => cases hr
  | cons hfirst _ ih =>
    rcases List.mem_cons.1 hr with rfl | hr
    · exact ⟨_, List.mem_cons_self, hfirst⟩
    · obtain ⟨d, hd, hcompiled⟩ := ih hr
      exact ⟨d, List.mem_cons_of_mem _ hd, hcompiled⟩

/-- A named route is one of the table. -/
theorem mem_of_named? {name : Text} (h : t.named? name = some r) : r ∈ t.routes := by
  obtain ⟨i, -, hi⟩ := Option.bind_eq_some_iff.1 h
  exact List.mem_of_getElem? hi

/-- Every route was compiled from some declaration. -/
def Compiled (t : Table) : Prop := ∀ r ∈ t.routes, ∃ d c, Route.compile d c = .ok r

theorem compiled_of_draw (h : t.draw ds = .ok t') : t'.Compiled := by
  intro r hr
  obtain ⟨d, -, c, -, hcompile⟩ := declared_of_draw h hr
  exact ⟨d, c, hcompile⟩

end Table

end Routing
