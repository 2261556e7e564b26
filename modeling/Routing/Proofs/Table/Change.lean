import Routing.Proofs.Table

/-!
# Tables under change

A table is built by a row of changes, of which some may fail: namespaces are registered, routes are
added and appended, and the whole table is emptied or drawn anew. What a change can do is said once
here; what holds of every table that can be built follows from it.

* `Table.Change`, `Table.perform` — a change, what it answers and the table that it leaves
* `Table.after`, `Table.after_induction` — the table after a row of changes
* `Table.Leaves`, `Table.leaves_perform` — all that a change can leave
* `Table.perform_eq_error` — what a change leaves that fails
* `Table.compiled_after` — the routes of a table that was built have been compiled
-/

namespace Routing

variable [Properties]

namespace Namespaces

variable {n n' : Namespaces} {c : Requirement}

/-- The same names are known and the same requirement is given, which is all that can be asked of
namespaces. -/
def Agree (n n' : Namespaces) : Prop :=
  n'.known = n.known ∧ n'.requirement.map Prod.fst = n.requirement.map Prod.fst

theorem Agree.refl (n : Namespaces) : n.Agree n := ⟨rfl, rfl⟩

theorem Agree.trans {n'' : Namespaces} (h : n.Agree n') (h' : n'.Agree n'') : n.Agree n'' :=
  ⟨h'.1.trans h.1, h'.2.trans h.2⟩

/-- Namespaces that keep their requirement give the one that they gave. -/
theorem agree_of_requirement (h : n.requirement = .ok (c, n')) : n.Agree n' := by
  rw [Agree, h]
  rw [requirement] at h
  split at h
  · next hkept =>
    cases h
    refine ⟨rfl, ?_⟩
    rw [requirement, hkept]
  · obtain ⟨c', -, h⟩ := bind_eq_ok.1 h
    cases h
    exact ⟨rfl, rfl⟩

/-- A name that is not new changes nothing. -/
theorem insert_of_known {name : Text} (h : (n.insert name).1 = false) : (n.insert name).2 = n := by
  rw [insert] at h ⊢
  split at h
  · next hknown => rw [if_pos hknown]
  · cases h

end Namespaces

namespace Table

variable {t t' : Table} {d : Declaration} {ds : List Declaration} {r : Route}

/-! ## Changes -/

/-- What can be asked of a table that changes it. -/
inductive Change where
  | addNamespace (name : Text)
  /-- Only the requirement on controllers is asked for, which the table then keeps. -/
  | askController
  | add (d : Declaration)
  | append (r : Route)
  | clear
  | draw (ds : List Declaration)

/-- Whether a change succeeds, and the table that it leaves. -/
def perform (t : Table) : Change → Except CompileError Unit × Table
  | .addNamespace name => (.ok (), (t.addNamespace name).2)
  | .askController =>
    match t.controllerRequirement with
    | .ok (_, t') => (.ok (), t')
    | .error e => (.error e, t)
  | .add d =>
    match t.add d with
    | (.ok _, t') => (.ok (), t')
    | (.error e, t') => (.error e, t')
  | .append r => (.ok (), t.append r)
  | .clear => (.ok (), t.clear)
  | .draw ds =>
    match t.draw ds with
    | .ok t' => (.ok (), t')
    | .error e => (.error e, t)

/-- The table after a row of changes, whether each of them succeeds or not. -/
def after (t : Table) (changes : List Change) : Table :=
  changes.foldl (fun t change => (t.perform change).2) t

/-- What every change keeps, a row of changes keeps. -/
theorem after_induction {P : Table → Prop} (hstep : ∀ t change, P t → P (t.perform change).2)
    (h : P t) (changes : List Change) : P (t.after changes) := by
  induction changes generalizing t with
  | nil => exact h
  | cons change changes ih => exact ih (hstep t change h)

/-! ## What a change can do -/

/-- The table with other namespaces. -/
def withNamespaces (t : Table) (n : Namespaces) : Table := { t with namespaces := n }

@[simp] theorem namespaces_withNamespaces (n : Namespaces) :
    (t.withNamespaces n).namespaces = n := rfl

@[simp] theorem routes_append (r : Route) : (t.append r).routes = t.routes ++ [r] := rfl

@[simp] theorem namespaces_append (r : Route) : (t.append r).namespaces = t.namespaces := rfl

theorem namespaces_foldl_append (routes : List Route) :
    (routes.foldl append t).namespaces = t.namespaces := by
  induction routes generalizing t with
  | nil => rfl
  | cons r routes ih => exact ih

/-- Asking for the requirement on controllers only makes the namespaces keep it. -/
theorem controllerRequirement_eq_ok {c : Requirement} (h : t.controllerRequirement = .ok (c, t')) :
    ∃ n, t.namespaces.Agree n ∧ t' = t.withNamespaces n := by
  obtain ⟨⟨c', n⟩, hn, h⟩ := bind_eq_ok.1 h
  cases h
  exact ⟨n, Namespaces.agree_of_requirement (mapError_eq_ok.1 hn), rfl⟩

/-- A declaration is refused, or its route is appended. -/
theorem add_cases (t : Table) (d : Declaration) :
    ∃ n, t.namespaces.Agree n ∧
      ((∃ e, t.add d = (.error e, t.withNamespaces n)) ∨
        ∃ r, t.add d = (.ok r, (t.withNamespaces n).append r)) := by
  -- asking for the requirement may fail, and so may compiling the route against it
  cases hc : t.controllerRequirement with
  | error e =>
    refine ⟨t.namespaces, .refl _, .inl ⟨e, ?_⟩⟩
    rw [add, hc]
    rfl
  | ok p =>
    obtain ⟨c, t₁⟩ := p
    obtain ⟨n, hn, rfl⟩ := controllerRequirement_eq_ok hc
    refine ⟨n, hn, ?_⟩
    cases hr : Route.compile d c with
    | error e =>
      left
      refine ⟨e, ?_⟩
      rw [add, hc]
      simp only [hr]
    | ok r =>
      right
      refine ⟨r, ?_⟩
      rw [add, hc]
      simp only [hr]

/-- Declarations that are added append their routes in turn. -/
theorem addAll_cases (h : t.addAll ds = .ok t') :
    ∃ n, ∃ routes : List Route, t.namespaces.Agree n ∧
      t' = routes.foldl append (t.withNamespaces n) := by
  induction ds generalizing t with
  | nil =>
    cases h
    exact ⟨_, [], .refl _, rfl⟩
  | cons d ds ih =>
    obtain ⟨n, hn, ⟨e, hadd⟩ | ⟨r, hadd⟩⟩ := t.add_cases d
    · rw [addAll, hadd] at h
      cases h
    · rw [addAll, hadd] at h
      obtain ⟨n', routes, hn', rfl⟩ := ih h
      -- the namespaces may be exchanged before the first route is appended
      exact ⟨n', r :: routes, hn.trans hn', rfl⟩

/-- What a change can leave of a table. -/
inductive Leaves (t : Table) : Table → Prop
  /-- The routes stay as they are. -/
  | same (n : Namespaces) : Leaves t (t.withNamespaces n)
  /-- One more route is appended. -/
  | more (n : Namespaces) (r : Route) : Leaves t ((t.withNamespaces n).append r)
  /-- The routes give way to others, which are appended in turn. -/
  | anew (n : Namespaces) (routes : List Route) :
    Leaves t (routes.foldl append (ofNamespaces n))

/-- A change keeps the routes, adds one at the end or starts anew. -/
theorem leaves_perform (t : Table) (change : Change) : t.Leaves (t.perform change).2 := by
  cases change with
  | addNamespace name => exact .same _
  | askController =>
    rw [perform]
    split
    · next hc =>
      obtain ⟨n, -, rfl⟩ := controllerRequirement_eq_ok hc
      exact .same n
    · exact .same t.namespaces
  | add d =>
    obtain ⟨n, -, ⟨e, hadd⟩ | ⟨r, hadd⟩⟩ := t.add_cases d
    · rw [perform, hadd]
      exact .same n
    · rw [perform, hadd]
      exact .more n r
  | append r => exact .more t.namespaces r
  | clear => exact .anew _ []
  | draw ds =>
    rw [perform]
    split
    · next hdraw =>
      obtain ⟨n, routes, -, rfl⟩ := addAll_cases hdraw
      exact .anew n routes
    · exact .same t.namespaces

/-- A change that fails leaves the routes, the index and all that can be asked of the namespaces. -/
theorem perform_eq_error {change : Change} {e : CompileError}
    (h : t.perform change = (.error e, t')) :
    ∃ n, t.namespaces.Agree n ∧ t' = t.withNamespaces n := by
  -- adding a namespace, appending and clearing do not fail
  cases change with
  | addNamespace | append | clear => cases h
  | askController =>
    rw [perform] at h
    split at h
    · cases h
    · cases h
      exact ⟨t.namespaces, .refl _, rfl⟩
  | add d =>
    obtain ⟨n, hn, ⟨e', hadd⟩ | ⟨r, hadd⟩⟩ := t.add_cases d
    · rw [perform, hadd] at h
      cases h
      exact ⟨n, hn, rfl⟩
    · rw [perform, hadd] at h
      cases h
  | draw ds =>
    rw [perform] at h
    split at h
    · cases h
    · cases h
      exact ⟨t.namespaces, .refl _, rfl⟩

/-! ## Compiled routes -/

/-- A route that is added is a compiled one. -/
theorem compile_of_add (h : t.add d = (.ok r, t')) : ∃ c, Route.compile d c = .ok r := by
  rw [add] at h
  split at h
  · cases h
  · split at h
    · cases h
    · next hr =>
      cases h
      exact ⟨_, hr⟩

theorem Compiled.append (h : t.Compiled) (hr : ∃ d c, Route.compile d c = .ok r) :
    (t.append r).Compiled :=
  List.forall_mem_append.2 ⟨h, List.forall_mem_singleton.2 hr⟩

/-- A change keeps compiled routes, when a route that it appends was compiled. -/
theorem Compiled.perform (h : t.Compiled) {change : Change}
    (hchange : ∀ r, change = .append r → ∃ d c, Route.compile d c = .ok r) :
    (t.perform change).2.Compiled := by
  -- one case for each change; only an appended route is not compiled by the table itself
  cases change with
  | addNamespace name => exact h
  | askController =>
    rw [Table.perform]
    split
    · next hc =>
      obtain ⟨n, -, rfl⟩ := controllerRequirement_eq_ok hc
      exact h
    · exact h
  | add d =>
    obtain ⟨n, -, ⟨e, hadd⟩ | ⟨r, hadd⟩⟩ := t.add_cases d
    · rw [Table.perform, hadd]
      exact h
    · rw [Table.perform, hadd]
      exact Compiled.append h ⟨d, compile_of_add hadd⟩
  | append r => exact h.append (hchange r rfl)
  | clear => exact fun r hr => absurd hr List.not_mem_nil
  | draw ds =>
    rw [Table.perform]
    split
    · next hdraw => exact compiled_of_draw hdraw
    · exact h

/-- Every table that can be built holds compiled routes. -/
theorem compiled_after (n : Namespaces) (changes : List Change)
    (h : ∀ r, .append r ∈ changes → ∃ d c, Route.compile d c = .ok r) :
    ((ofNamespaces n).after changes).Compiled := by
  have hstart : (ofNamespaces n).Compiled := fun r hr => absurd hr List.not_mem_nil
  generalize ofNamespaces n = t at hstart
  induction changes generalizing t with
  | nil => exact hstart
  | cons change changes ih =>
    refine ih (fun r hr => h r (List.mem_cons_of_mem _ hr)) (t.perform change).2 ?_
    exact hstart.perform fun r hr => h r (hr ▸ List.mem_cons_self)

end Table

end Routing
