import Routing.Proofs.Steps
import Routing.Recognition

/-!
# What is recognised

A request is recognised by the first route that admits its host, fits its path, yields a controller
and accepts its method. What this route reads in the path are the parameters, but that the action is
`index` unless it reads one.

* `Request.accepted?` — what a route gives to a request that it accepts
* `Table.recognize_eq_findSome` — the first such route decides
* `Table.RecognizedBy`, `Table.recognize_eq_ok` — the route that recognises a request
* `Request.Fits`, `Request.failure`, `Table.recognize_eq_error` — when there is none, and what is
  told then
-/

namespace Routing

namespace Request

/-- The path as the routes see it. -/
def decoded (request : Request) : Text := Path.decode (Path.normalize request.path)

/-- The parameters that a route gives to a request, whose method it accepts. -/
def accepted? [Properties] (request : Request) (r : Route) : Option Params :=
  if r.accepts request.method then
    (r.candidate? request.host request.decoded).map Recognition.complete
  else none

/-- The route admits the host, fits the path and yields a controller. -/
def Fits [Properties] (request : Request) (r : Route) : Prop :=
  ∃ captured, r.candidate? request.host request.decoded = some captured

/-- The methods that are listed by the routes which fit, in the order of the routes. -/
def offered [Properties] (request : Request) (routes : List Route) : List Method :=
  routes.flatMap fun r =>
    if (r.candidate? request.host request.decoded).isSome then r.condition.methods else []

/-- What is told when no route accepts the request and these methods are listed. -/
def failure (request : Request) (found : List Method) : RecognitionError :=
  match request.method, found with
  | some method, _ :: _ =>
    .methodNotAllowed (Path.normalize request.path) method (Recognition.sorted found)
  | _, _ => .notFound (Path.normalize request.path)

@[simp] theorem failure_nil (request : Request) :
    request.failure [] = .notFound (Path.normalize request.path) := by
  obtain ⟨path, method, host⟩ := request
  cases method <;> rfl

/-- With methods to tell, a request fails because its own is not allowed. -/
theorem failure_of_ne_nil {request : Request} {m : Method} {found : List Method}
    (hm : request.method = some m) (hfound : found ≠ []) :
    request.failure found =
      .methodNotAllowed (Path.normalize request.path) m (Recognition.sorted found) := by
  obtain ⟨first, rest, rfl⟩ := List.exists_cons_of_ne_nil hfound
  simp only [failure, hm]

/-- A method is offered when a route that fits the request lists it. -/
theorem mem_offered [Properties] {request : Request} {routes : List Route} {m : Method} :
    m ∈ request.offered routes ↔ ∃ r ∈ routes, request.Fits r ∧ m ∈ r.condition.methods := by
  rw [offered, List.mem_flatMap]
  refine exists_congr fun r => and_congr_right fun _ => ?_
  rw [Fits, ← Option.isSome_iff_exists]
  split
  · next hsome => simp [hsome]
  · next hnone => simp [hnone]

theorem offered_append [Properties] (request : Request) (routes routes' : List Route) :
    request.offered (routes ++ routes') = request.offered routes ++ request.offered routes' :=
  List.flatMap_append

end Request

namespace Recognition

variable {request : Request} {params : Params} {k : Text}

/-- The search ends with the first route that accepts the request, whatever methods were seen
before. -/
theorem among_eq_ok [Properties] {found : List Method} {routes : List Route} :
    among request.method request.host request.decoded found routes = .ok params ↔
      routes.findSome? request.accepted? = some params := by
  -- on the routes, for any methods seen before
  induction routes generalizing found with
  | nil => simp [among]
  | cons r routes ih =>
    rw [among, List.findSome?_cons, Request.accepted?]
    cases r.candidate? request.host request.decoded with
    | none => simp [ih]
    | some captured =>
      by_cases hr : r.accepts request.method = true
      · simp [hr]
      · simp [hr, ih]

/-- No route is found when each one that fits refuses the method. -/
theorem among_eq_error [Properties] {found found' : List Method} {routes : List Route} :
    among request.method request.host request.decoded found routes = .error found' ↔
      (∀ r ∈ routes, request.Fits r → r.accepts request.method = false) ∧
        found' = found ++ request.offered routes := by
  -- on the routes, each of which adds its own methods to those seen before
  induction routes generalizing found with
  | nil =>
    rw [among, Request.offered, List.flatMap_nil, List.append_nil, Except.error.injEq]
    simp [eq_comm (a := found)]
  | cons r routes ih =>
    rw [among, Request.offered, List.flatMap_cons, ← Request.offered, List.forall_mem_cons,
      Request.Fits]
    cases hr : r.candidate? request.host request.decoded with
    | none => simp [ih]
    | some captured =>
      by_cases haccepts : r.accepts request.method = true
      · simp [haccepts]
      · simp [haccepts, ih]

/-- An action is put in only where none was read. -/
theorem get?_complete_eq (params : Params) (k : Text) : (complete params).get? k =
    (params.get? k).or (if k = actionKey then some (.str indexAction) else none) := by
  rw [complete]
  -- the action is set when there is none, and nothing else is touched
  split
  · next hcontains =>
    obtain ⟨v, hv⟩ := Option.isSome_iff_exists.1 hcontains
    by_cases hk : k = actionKey
    · subst hk
      rw [hv]
      rfl
    · rw [if_neg hk, Option.or_none]
  · next hcontains =>
    have hnone : params.get? actionKey = none := by simpa [Dict.contains] using hcontains
    rw [Dict.get?_insert]
    by_cases hk : k = actionKey
    · subst hk
      rw [if_pos rfl, if_pos rfl, hnone]
      rfl
    · rw [if_neg (Ne.symm hk), if_neg hk, Option.or_none]

/-- What is captured or a default stays as it is. -/
theorem get?_complete {v : Value} (h : params.get? k = some v) :
    (complete params).get? k = some v := by
  rw [get?_complete_eq, h]
  rfl

end Recognition

namespace Table

variable [Properties] {t : Table} {request : Request} {r : Route} {params : Params}

/-- Recognition is the search among the routes, with the failure of the request. -/
theorem recognize_eq_mapError (t : Table) (request : Request) :
    t.recognize request =
      (Recognition.among request.method request.host request.decoded [] t.routes).mapError
        request.failure := by
  rw [recognize, ← Request.decoded]
  cases Recognition.among request.method request.host request.decoded [] t.routes with
  | ok params => rfl
  | error found =>
    obtain ⟨path, method, host⟩ := request
    cases method <;> cases found <;> rfl

/-- A request is recognised as what the first route that accepts it makes of it. -/
theorem recognize_eq_findSome : t.recognize request = .ok params ↔
    t.routes.findSome? request.accepted? = some params := by
  rw [recognize_eq_mapError, mapError_eq_ok, Recognition.among_eq_ok]

/-- The request is recognised by this route, and no earlier one accepts it. -/
def RecognizedBy (t : Table) (request : Request) (r : Route) (params : Params) : Prop :=
  ∃ before after, t.routes = before ++ r :: after ∧ request.accepted? r = some params ∧
    ∀ r' ∈ before, request.accepted? r' = none

/-- A request fails when each route that fits refuses its method. -/
theorem recognize_eq_error {e : RecognitionError} : t.recognize request = .error e ↔
    (∀ r ∈ t.routes, request.Fits r → r.accepts request.method = false) ∧
      e = request.failure (request.offered t.routes) := by
  rw [recognize_eq_mapError, mapError_eq_error]
  simp only [Recognition.among_eq_error, List.nil_append]
  constructor
  · rintro ⟨_, ⟨hrefused, rfl⟩, rfl⟩
    exact ⟨hrefused, rfl⟩
  · rintro ⟨hrefused, rfl⟩
    exact ⟨_, ⟨hrefused, rfl⟩, rfl⟩

/-- A request is recognised when there is a route that accepts it and none before it does. -/
theorem recognize_eq_ok :
    t.recognize request = .ok params ↔ ∃ r, t.RecognizedBy request r params := by
  rw [recognize_eq_findSome, List.findSome?_eq_some_iff]
  constructor
  · intro h
    obtain ⟨before, r, after, hroutes, hr, hbefore⟩ := h
    exact ⟨r, before, after, hroutes, hr, hbefore⟩
  · intro h
    obtain ⟨r, before, after, hroutes, hr, hbefore⟩ := h
    exact ⟨before, r, after, hroutes, hr, hbefore⟩

/-- The route that recognises a request is one of the table. -/
theorem RecognizedBy.mem (h : t.RecognizedBy request r params) : r ∈ t.routes := by
  obtain ⟨before, after, hroutes, -, -⟩ := h
  rw [hroutes]
  exact List.mem_append_right _ List.mem_cons_self

/-- A request succeeds when a route that fits accepts its method. -/
theorem exists_recognize_eq_ok : (∃ params, t.recognize request = .ok params) ↔
    ∃ r ∈ t.routes, request.Fits r ∧ r.accepts request.method = true := by
  constructor
  · rintro ⟨params, hok⟩
    obtain ⟨r, hr⟩ := recognize_eq_ok.1 hok
    have hmem := hr.mem
    obtain ⟨-, -, -, haccepted, -⟩ := hr
    rw [Request.accepted?] at haccepted
    split at haccepted
    · next haccepts =>
      obtain ⟨captured, hcandidate, -⟩ := Option.map_eq_some_iff.1 haccepted
      exact ⟨r, hmem, ⟨captured, hcandidate⟩, haccepts⟩
    · cases haccepted
  · rintro ⟨r, hmem, hfits, haccepts⟩
    cases hrecognize : t.recognize request with
    | ok params => exact ⟨params, rfl⟩
    | error e =>
      rw [(recognize_eq_error.1 hrecognize).1 r hmem hfits] at haccepts
      cases haccepts

/-- The parameters of a recognised request are those that the route reads in its path, with an
action. -/
theorem RecognizedBy.match? (h : t.RecognizedBy request r params) :
    ∃ captured, r.match? request.decoded = some captured ∧
      params = Recognition.complete captured := by
  obtain ⟨before, after, -, hr, -⟩ := h
  rw [Request.accepted?] at hr
  split at hr
  · obtain ⟨captured, hcandidate, rfl⟩ := Option.map_eq_some_iff.1 hr
    rw [Route.candidate?] at hcandidate
    split at hcandidate
    · exact ⟨captured, (Option.filter_eq_some_iff.1 hcandidate).1, rfl⟩
    · cases hcandidate
  · cases hr

end Table

end Routing
