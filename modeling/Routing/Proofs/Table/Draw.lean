import Routing.Proofs.Table.Change

/-!
# Drawing a table

Whether a declaration is refused, and the route that it becomes otherwise, depends on the
declaration and on the namespaces that are known, and on nothing that the table held or kept before.
The first declaration that is refused decides the error of a list.

* `Declaration.under` — a declaration compiled under known namespaces, whose requirement on
  controllers is derived anew
* `Namespaces.Agree.kept`, `Table.kept_perform` — what is kept stays the requirement of the
  namespaces
* `Table.add_answer` — adding a declaration answers as compiling it does
* `Table.draw_eq_error`, `Table.exists_draw_eq_ok`, `Table.draw_congr` — drawing a list
-/

namespace Routing

/-! ## Under known namespaces -/

variable [Properties]

namespace Namespaces

variable {n n' : Namespaces} {known : Dict Unit}

/-- The requirement on controllers when these namespaces are known, derived anew. -/
def derive (known : Dict Unit) : Except CompileError Requirement :=
  let source := source ⟨known, none⟩
  (Requirement.compile (.plain source)).mapError (.requirement controllerKey source)

/-- Namespaces that keep nothing but their requirement give the one that is derived. -/
theorem Kept.requirement_answer (hkept : n.Kept) :
    n.requirement.map Prod.fst = Requirement.compile (.plain n.source) := by
  rw [requirement]
  split
  · next c hc => exact (hkept c hc).symm
  · cases Requirement.compile (.plain n.source) <;> rfl

/-- Namespaces that give the same requirement keep it as well. -/
theorem Agree.kept (h : n.Agree n') (hkept : n.Kept) : n'.Kept := by
  intro c hc
  have hgives : n'.requirement = .ok (c, n') := by rw [requirement, hc]
  have hsame := h.2.symm.trans (congrArg _ hgives)
  rw [hkept.requirement_answer] at hsame
  rw [source_congr h.1]
  exact hsame

/-- With a new name nothing is kept. -/
theorem Kept.insert (hkept : n.Kept) (name : Text) : (n.insert name).2.Kept := by
  rw [Namespaces.insert]
  split
  · exact hkept
  · intro c hc
    cases hc

/-- Namespaces that keep no requirement keep none after one more name. -/
theorem forget_insert (h : n.forget = n) (name : Text) :
    (n.insert name).2.forget = (n.insert name).2 := by
  rw [Namespaces.insert]
  split
  · exact h
  · rfl

/-- Nothing is kept of names that were only listed. -/
theorem forget_ofList (names : List Text) : (ofList names).forget = ofList names := by
  have hfold : ∀ n : Namespaces, n.forget = n →
      (names.foldl (fun n name => (n.insert name).2) n).forget =
        names.foldl (fun n name => (n.insert name).2) n := by
    induction names with
    | nil => exact fun _ hn => hn
    | cons name names ih => exact fun n hn => ih _ (forget_insert hn name)
  exact hfold empty rfl

end Namespaces

namespace Declaration

variable {d : Declaration} {known : Dict Unit} {r : Route}

/-- The route of a declaration when these namespaces are known. -/
def under (d : Declaration) (known : Dict Unit) : Except CompileError Route := do
  Route.compile d (← Namespaces.derive known)

/-- A declaration gives a route when the requirement compiles and the route does. -/
theorem under_eq_ok : d.under known = .ok r ↔
    ∃ c, Requirement.compile (.plain (Namespaces.source ⟨known, none⟩)) = .ok c ∧
      Route.compile d c = .ok r := by
  rw [under, bind_eq_ok]
  exact exists_congr fun c => and_congr_left' mapError_eq_ok

end Declaration

namespace Table

variable {t t' u : Table} {d : Declaration} {ds : List Declaration} {r : Route} {e : CompileError}

/-! ## One declaration -/

theorem add_answer_of_requirement {c : Requirement} (h : t.controllerRequirement = .ok (c, t'))
    (d : Declaration) : (t.add d).1 = Route.compile d c := by
  rw [add, h]
  cases hr : Route.compile d c <;> simp only [hr]

/-- Adding a declaration answers as compiling it under the known namespaces does. -/
theorem add_answer (hkept : t.namespaces.Kept) (d : Declaration) :
    (t.add d).1 = d.under t.namespaces.known := by
  have hsource : Namespaces.source ⟨t.namespaces.known, none⟩ = t.namespaces.source :=
    Namespaces.source_congr rfl
  rw [Declaration.under, Namespaces.derive, hsource, ← hkept.requirement_answer]
  -- a kept requirement is the one that would be compiled again
  cases hrequirement : t.namespaces.requirement with
  | error f =>
    rw [add, controllerRequirement, hrequirement]
    rfl
  | ok p =>
    obtain ⟨c, n⟩ := p
    have hc : t.controllerRequirement = .ok (c, t.withNamespaces n) := by
      rw [controllerRequirement, hrequirement]
      rfl
    rw [add_answer_of_requirement hc]
    rfl

/-- A change keeps the requirement of the namespaces, if any. -/
theorem kept_perform (hkept : t.namespaces.Kept) (change : Change) :
    (t.perform change).2.namespaces.Kept := by
  -- one case for each change; drawing starts with nothing kept
  cases change with
  | addNamespace name => exact hkept.insert name
  | askController =>
    rw [perform]
    split
    · next hc =>
      obtain ⟨n, hn, rfl⟩ := controllerRequirement_eq_ok hc
      exact hn.kept hkept
    · exact hkept
  | add d =>
    obtain ⟨n, hn, ⟨e, hadd⟩ | ⟨r, hadd⟩⟩ := t.add_cases d
    · rw [perform, hadd]
      exact hn.kept hkept
    · rw [perform, hadd]
      exact hn.kept hkept
  | append r => exact hkept
  | clear => exact t.namespaces.kept_forget
  | draw ds =>
    rw [perform]
    split
    · next t' hdraw =>
      obtain ⟨n, routes, hn, rfl⟩ := addAll_cases hdraw
      rw [namespaces_foldl_append]
      exact hn.kept t.namespaces.kept_forget
    · exact hkept

/-! ## A list of declarations -/

/-- The first declaration that is refused ends the row. -/
theorem addAll_eq_error (hkept : t.namespaces.Kept) : t.addAll ds = .error e ↔
    ∃ before d rest, ds = before ++ d :: rest ∧
      (∀ d' ∈ before, ∃ r, d'.under t.namespaces.known = .ok r) ∧
      d.under t.namespaces.known = .error e := by
  -- on the declarations: the first one fails, or it is under the same namespaces that the others
  -- fail
  induction ds generalizing t with
  | nil =>
    constructor
    · intro h
      cases h
    · rintro ⟨before, d, rest, hds, -⟩
      simp at hds
  | cons d ds ih =>
    obtain ⟨n, hn, ⟨e', hadd⟩ | ⟨r, hadd⟩⟩ := t.add_cases d
    · have hunder : d.under t.namespaces.known = .error e' := by rw [← add_answer hkept, hadd]
      rw [addAll, hadd]
      constructor
      · intro h
        cases h
        exact ⟨[], d, ds, rfl, by simp, hunder⟩
      · rintro ⟨before, d', rest, hds, hbefore, herror⟩
        cases before with
        | nil =>
          cases hds
          rw [← hunder, herror]
        | cons first before =>
          cases hds
          obtain ⟨r, hr⟩ := hbefore d List.mem_cons_self
          cases hunder.symm.trans hr
    · have hunder : d.under t.namespaces.known = .ok r := by rw [← add_answer hkept, hadd]
      -- the table that is left knows the same namespaces
      have hrest := ih (t := (t.withNamespaces n).append r) (hn.kept hkept)
      rw [namespaces_append, namespaces_withNamespaces, hn.1] at hrest
      rw [addAll, hadd]
      refine hrest.trans ⟨?_, ?_⟩
      · rintro ⟨before, d', rest, rfl, hbefore, herror⟩
        exact ⟨d :: before, d', rest, rfl, List.forall_mem_cons.2 ⟨⟨r, hunder⟩, hbefore⟩, herror⟩
      · rintro ⟨before, d', rest, hds, hbefore, herror⟩
        cases before with
        | nil =>
          cases hds
          cases hunder.symm.trans herror
        | cons first before =>
          cases hds
          exact ⟨before, d', rest, rfl, (List.forall_mem_cons.1 hbefore).2, herror⟩

/-- A list is refused for the first declaration in it that is. -/
theorem draw_eq_error : t.draw ds = .error e ↔
    ∃ before d rest, ds = before ++ d :: rest ∧
      (∀ d' ∈ before, ∃ r, d'.under t.namespaces.known = .ok r) ∧
      d.under t.namespaces.known = .error e :=
  addAll_eq_error t.namespaces.kept_forget

/-- The routes of a table that is drawn are those of the declarations, in order. -/
theorem forall₂_under_of_draw (h : t.draw ds = .ok t') :
    List.Forall₂ (fun d r => d.under t.namespaces.known = .ok r) ds t'.routes :=
  (draw_eq_ok h).imp fun _ _ hr => Declaration.under_eq_ok.2 hr

/-- A list is drawn when none of its declarations is refused. -/
theorem exists_draw_eq_ok :
    (∃ t', t.draw ds = .ok t') ↔ ∀ d ∈ ds, ∃ r, d.under t.namespaces.known = .ok r := by
  constructor
  · rintro ⟨t', h⟩
    have hrow := (forall₂_under_of_draw h).imp fun d r hr => And.intro (Exists.intro r hr) hr
    exact ((List.forall₂_and_left ds t'.routes).1 hrow).1
  · intro hall
    cases h : t.draw ds with
    | ok t' => exact ⟨t', rfl⟩
    | error e =>
      obtain ⟨before, d, rest, rfl, -, herror⟩ := draw_eq_error.1 h
      obtain ⟨r, hr⟩ := hall d (List.mem_append_right _ List.mem_cons_self)
      cases herror.symm.trans hr

/-- What was there before does not matter, apart from the namespaces. -/
theorem draw_congr (h : u.namespaces.known = t.namespaces.known) (ds : List Declaration) :
    u.draw ds = t.draw ds := by
  have hforget : u.namespaces.forget = t.namespaces.forget := by
    rw [Namespaces.forget, Namespaces.forget, h]
  rw [draw, draw, hforget]

end Table

end Routing
