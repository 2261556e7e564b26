import Routing.Live
import Routing.Proofs.Table.Draw

/-!
# Serving a table

A table that serves is replaced as a whole and never changed in place. Nobody can tell: what serves
is the table that the same calls make of a table changed in place. A call that fails leaves what
serves as it is.

* `Live.Call`, `Live.perform`, `Live.after` — the calls to what serves
* `Live.simulates_perform`, `Live.simulates_after` — it goes along with a table
* `RouteFile.table_eq_draw` — a route file is drawn like any other list of declarations
* `Live.serves_after` — what is served after a row of calls
-/

namespace Routing

/-! ## Route files -/

/-- The table of a route file is that of its declarations under its namespaces. -/
theorem RouteFile.table_eq_draw [Properties] (file : RouteFile) :
    file.table = (Table.ofNamespaces (.ofList file.namespaces)).draw file.routes := by
  show _ = (Table.ofNamespaces (Namespaces.ofList file.namespaces).forget).addAll file.routes
  rw [Namespaces.forget_ofList]
  rfl

namespace Live

section

variable [Properties] {s s' : Live} {t : Table} {ds : List Declaration}

/-! ## Calls -/

/-- What can be asked of the table that serves. -/
inductive Call where
  | draw (ds : List Declaration)
  | clear

/-- The change that a call asks of a table. -/
def Call.change : Call → Table.Change
  | draw ds => .draw ds
  | clear => .clear

/-- Whether a call succeeds, and what serves then. -/
def perform (s : Live) : Call → Except CompileError Unit × Live
  | .draw ds =>
    match s.draw ds with
    | .ok s' => (.ok (), s')
    | .error e => (.error e, s)
  | .clear => (.ok (), s.clear)

/-- Whether a file is served, and what serves then. -/
def performLoad (s : Live) (bytes : Option (List UInt8)) : Except LoadError Unit × Live :=
  match s.load bytes with
  | .ok s' => (.ok (), s')
  | .error e => (.error e, s)

/-- What serves after a row of calls, whether each of them succeeds or not. -/
def after (s : Live) (calls : List Call) : Live :=
  calls.foldl (fun s call => (s.perform call).2) s

/-- A table that is drawn twice is drawn once. -/
theorem draw_eq_map (s : Live) (ds : List Declaration) :
    s.draw ds = (s.table.draw ds).map Live.mk := by
  have htwice : (Table.ofNamespaces s.table.namespaces.forget).draw ds = s.table.draw ds :=
    Table.draw_congr rfl ds
  rw [draw, htwice]
  cases s.table.draw ds <;> rfl

/-- Drawing succeeds when it does for the table. -/
theorem draw_eq_ok : s.draw ds = .ok s' ↔ s.table.draw ds = .ok s'.table := by
  rw [draw_eq_map]
  cases s.table.draw ds with
  | error e => exact ⟨nofun, nofun⟩
  | ok t =>
    obtain ⟨t'⟩ := s'
    show Except.ok (Live.mk t) = .ok ⟨t'⟩ ↔ _
    simp

/-- Drawing fails as it does for the table. -/
theorem draw_eq_error {e : CompileError} : s.draw ds = .error e ↔ s.table.draw ds = .error e := by
  rw [draw_eq_map]
  cases s.table.draw ds with
  | error e' =>
    show Except.error e' = .error e ↔ _
    simp
  | ok t => exact ⟨nofun, nofun⟩

/-- A file serves like its declarations. -/
theorem load_eq (s : Live) (bytes : Option (List UInt8)) :
    s.load bytes = do
      let file ← (RouteFile.read bytes).mapError .file
      let t ← ((Table.ofNamespaces (.ofList file.namespaces)).draw file.routes).mapError .route
      return ⟨t⟩ := by
  rw [load]
  congr 1
  funext file
  rw [RouteFile.table_eq_draw]
  rfl

/-! ## Going along with a table -/

/-- A call answers as the change of the table does, and the two stay together. -/
theorem simulates_perform (h : s.table = t) (call : Call) :
    (s.perform call).1 = (t.perform call.change).1 ∧
      (s.perform call).2.table = (t.perform call.change).2 := by
  subst h
  cases call with
  | clear => exact ⟨rfl, rfl⟩
  | draw ds =>
    rw [perform, draw_eq_map, Call.change, Table.perform]
    cases s.table.draw ds <;> exact ⟨rfl, rfl⟩

/-- What is served is the table after the same changes. -/
theorem simulates_after (h : s.table = t) (calls : List Call) :
    (s.after calls).table = t.after (calls.map Call.change) := by
  induction calls generalizing s t with
  | nil => exact h
  | cons call calls ih => exact ih (simulates_perform h call).2

/-- The namespaces are never changed. -/
theorem known_perform (s : Live) (call : Call) :
    (s.perform call).2.table.namespaces.known = s.table.namespaces.known := by
  cases call with
  | clear => rfl
  | draw ds =>
    rw [perform]
    split
    · next hdraw =>
      obtain ⟨n, routes, hn, hs'⟩ := Table.addAll_cases (draw_eq_ok.1 hdraw)
      rw [hs', Table.namespaces_foldl_append]
      exact hn.1
    · rfl

/-- No call changes the known namespaces. -/
theorem known_after (s : Live) (calls : List Call) :
    (s.after calls).table.namespaces.known = s.table.namespaces.known := by
  induction calls generalizing s with
  | nil => rfl
  | cons call calls ih => exact (ih _).trans (s.known_perform call)

/-- What serves stays when a call fails. -/
theorem perform_eq_error {call : Call} {e : CompileError} (h : s.perform call = (.error e, s')) :
    s' = s := by
  cases call with
  | clear => cases h
  | draw ds =>
    rw [perform] at h
    split at h
    · cases h
    · cases h
      rfl

/-- Loading that fails leaves what is served. -/
theorem performLoad_eq_error {bytes : Option (List UInt8)} {e : LoadError}
    (h : s.performLoad bytes = (.error e, s')) : s' = s := by
  rw [performLoad] at h
  split at h
  · cases h
  · cases h
    rfl

/-! ## Served tables -/

/-- What serves after a row of calls is the table that the same changes make, and it answers every
further call alike. The declarations that are drawn next are compiled under the namespaces from the
beginning: all of them are served, in order, or the first that is refused tells why not, whatever
was served before. A file serves like its declarations under its namespaces. What serves stays when
a call or a file fails. -/
theorem serves_after (t : Table) (calls : List Call) :
    let s := (Live.mk t).after calls
    let u := t.after (calls.map Call.change)
    let known := t.namespaces.known
    s.table = u ∧
      (∀ call, (s.perform call).1 = (u.perform call.change).1) ∧
      (∀ ds, (∃ s', s.draw ds = .ok s') ↔ ∀ d ∈ ds, ∃ r, d.under known = .ok r) ∧
      (∀ ds s', s.draw ds = .ok s' →
        List.Forall₂ (fun d r => d.under known = .ok r) ds s'.table.routes) ∧
      (∀ ds e, s.draw ds = .error e ↔ ∃ before d rest, ds = before ++ d :: rest ∧
        (∀ d' ∈ before, ∃ r, d'.under known = .ok r) ∧ d.under known = .error e) ∧
      (∀ ds (fresh : Table), fresh.namespaces.known = known →
        s.draw ds = (fresh.draw ds).map Live.mk) ∧
      (∀ file : RouteFile,
        file.table = (Table.ofNamespaces (.ofList file.namespaces)).draw file.routes) ∧
      (∀ bytes, s.load bytes = do
        let file ← (RouteFile.read bytes).mapError .file
        let t ← ((Table.ofNamespaces (.ofList file.namespaces)).draw file.routes).mapError .route
        return ⟨t⟩) ∧
      (∀ call e s', s.perform call = (.error e, s') → s' = s) ∧
      ∀ bytes e s', s.performLoad bytes = (.error e, s') → s' = s := by
  intro s u known
  have htable : s.table = u := simulates_after rfl calls
  have hknown : s.table.namespaces.known = known := known_after ⟨t⟩ calls
  -- all answers are stated for the namespaces at the start, which no call changes
  rw [← hknown]
  refine ⟨htable, fun call => (simulates_perform htable call).1, ?_, ?_, ?_, ?_,
    RouteFile.table_eq_draw, load_eq s, fun _ _ _ => perform_eq_error,
    fun _ _ _ => performLoad_eq_error⟩
  · intro ds
    rw [← Table.exists_draw_eq_ok]
    constructor
    · rintro ⟨s', h⟩
      exact ⟨s'.table, draw_eq_ok.1 h⟩
    · rintro ⟨t', h⟩
      exact ⟨⟨t'⟩, draw_eq_ok.2 h⟩
  · intro ds s' h
    exact Table.forall₂_under_of_draw (draw_eq_ok.1 h)
  · intro ds e
    rw [draw_eq_error]
    exact Table.draw_eq_error
  · intro ds fresh hfresh
    rw [draw_eq_map, Table.draw_congr hfresh]

end

/-- A page that is asked for by no method but this one. -/
def page (path method : String) : Declaration :=
  { Declaration.blank with path := path.toList, methods := [method.toList] }

/-- A list with a page that cannot be served leaves the pages from before. -/
theorem serves_after_page :
    let calls := [.draw [page "ca" "get"], .clear, .draw [page "cb" "get", page "cc" "post"],
      .draw [page "cd" "get", page "ce" "head"]]
    let s := (Live.mk .empty).after calls
    s.table = Table.empty.after (calls.map Call.change) ∧
      s.table.routes.map Route.pattern = ["cb", "cc"].map String.toList ∧
      s.table.namespaces.kept ≠ none ∧
      ∃ e, s.draw [page "cd" "get", page "ce" "head"] = .error e ∧
        (page "ce" "head").under .empty = .error e := by
  intro calls s
  obtain ⟨htable, -, -, -, herror, -⟩ := serves_after .empty calls
  have hget : ∀ d' ∈ [page "cd" "get"], (d'.under .empty).toOption.isSome = true := by
    decide +kernel
  have hhead : ((page "ce" "head").under .empty).toOption.isSome = false := by decide +kernel
  refine ⟨htable, by decide +kernel, by decide +kernel, ?_⟩
  cases hunder : (page "ce" "head").under .empty with
  | ok r =>
    rw [hunder] at hhead
    cases hhead
  | error e =>
    have hbefore : ∀ d' ∈ [page "cd" "get"], ∃ r, d'.under .empty = .ok r :=
      fun d' hd' => isSome_toOption.1 (hget d' hd')
    exact ⟨e, (herror _ e).2 ⟨_, _, [], rfl, hbefore, hunder⟩, rfl⟩

end Live

end Routing
