import Routing.Generation
import Routing.Proofs.Recognition.Methods

/-!
# Tables one after the other

The order of the routes is the only precedence between them, and a route that does not answer leaves
nothing behind. So a table whose routes are those of one table and then those of another answers as
the first one does where that succeeds, and as the second one otherwise; when both refuse a method,
the methods of both are told.

* `RecognitionError.allowed`, `Request.failure_allowed` — the methods that failures tell together
* `Table.recognize_append_of_error` — which they are, and in which order
* `Table.firstLink?_append` — the first link of routes and then other routes
* `Table.answers_append` — what two tables answer together
-/

namespace Routing

/-! ## Recognition -/

/-- The methods that would be accepted. -/
def RecognitionError.allowed : RecognitionError → List Method
  | methodNotAllowed _ _ allowed => allowed
  | notFound _ | unknownMethod _ => []

namespace Request

variable {request : Request} {found found' : List Method}

/-- Only which methods are listed counts, neither their order nor how often. -/
theorem failure_congr (h : ∀ m, m ∈ found ↔ m ∈ found') :
    request.failure found = request.failure found' := by
  cases hm : request.method with
  | none => simp only [failure, hm]
  | some m =>
    by_cases hfound : found = []
    · subst hfound
      have hnil : found' = [] := by
        refine List.eq_nil_iff_forall_not_mem.2 fun m hm => ?_
        simpa using (h m).2 hm
      rw [hnil]
    · have hfound' : found' ≠ [] := by
        obtain ⟨m, hm⟩ := List.exists_mem_of_ne_nil _ hfound
        exact List.ne_nil_of_mem ((h m).1 hm)
      have hsorted : Recognition.sorted found = Recognition.sorted found' :=
        List.filter_congr fun m _ => decide_eq_decide.2 (h m)
      rw [failure_of_ne_nil hm hfound, failure_of_ne_nil hm hfound', hsorted]

/-- With a method, a failure tells the methods that were found. -/
theorem mem_allowed_failure {m : Method} (hm : request.method ≠ none) :
    m ∈ (request.failure found).allowed ↔ m ∈ found := by
  obtain ⟨m', hm'⟩ := Option.ne_none_iff_exists'.1 hm
  by_cases hfound : found = []
  · rw [hfound, failure_nil]
    rfl
  · rw [failure_of_ne_nil hm' hfound]
    exact Recognition.mem_sorted

/-- The methods that two failures tell are those listed for either. -/
theorem failure_allowed :
    request.failure ((request.failure found).allowed ++ (request.failure found').allowed) =
      request.failure (found ++ found') := by
  cases hm : request.method with
  | none => simp only [failure, hm]
  | some m =>
    apply failure_congr
    intro m'
    rw [List.mem_append, List.mem_append, mem_allowed_failure (by simp [hm]),
      mem_allowed_failure (by simp [hm])]

end Request

namespace Table

section

variable [Properties] {t a b : Table}

/-- A table that answers for two others recognises what either does, the first one before the second
one. Where both fail it lists what the routes of both list. -/
theorem recognize_append (h : t.routes = a.routes ++ b.routes) (request : Request) :
    t.recognize request =
      match a.recognize request, b.recognize request with
      | .ok params, _ => .ok params
      | .error _, .ok params => .ok params
      | .error e, .error e' => .error (request.failure (e.allowed ++ e'.allowed)) := by
  cases ha : a.recognize request with
  | ok params =>
    rw [recognize_eq_findSome] at ha ⊢
    rw [h, List.findSome?_append, ha]
    rfl
  | error e =>
    -- no route of the first table accepts the request, so that the second one decides
    obtain ⟨hrefused, rfl⟩ := recognize_eq_error.1 ha
    have hnone : a.routes.findSome? request.accepted? = none := by
      rw [Option.eq_none_iff_forall_ne_some]
      intro params hparams
      rw [recognize_eq_findSome.2 hparams] at ha
      cases ha
    cases hb : b.recognize request with
    | ok params =>
      rw [recognize_eq_findSome] at hb ⊢
      rw [h, List.findSome?_append, hnone, Option.none_or, hb]
    | error e' =>
      obtain ⟨hrefused', rfl⟩ := recognize_eq_error.1 hb
      refine recognize_eq_error.2 ⟨?_, ?_⟩
      · rw [h]
        exact List.forall_mem_append.2 ⟨hrefused, hrefused'⟩
      · rw [h, Request.offered_append]
        exact Request.failure_allowed

/-- The methods that are told where both tables fail: those of either, in order and each once. -/
theorem recognize_append_of_error (h : t.routes = a.routes ++ b.routes) {request : Request}
    {e e' : RecognitionError} (ha : a.recognize request = .error e)
    (hb : b.recognize request = .error e') :
    ∃ methods : List Method, methods.Pairwise Method.Before ∧
      (∀ m, m ∈ methods ↔ m ∈ e.allowed ∨ m ∈ e'.allowed) ∧
      (methods = [] →
        t.recognize request = .error (.notFound (Path.normalize request.path))) ∧
      (methods ≠ [] → ∃ method, request.method = some method ∧
        t.recognize request =
          .error (.methodNotAllowed (Path.normalize request.path) method methods)) := by
  have ht : t.recognize request = .error (request.failure (e.allowed ++ e'.allowed)) := by
    rw [recognize_append h, ha, hb]
  refine ⟨Recognition.sorted (e.allowed ++ e'.allowed), Recognition.pairwise_sorted _, ?_, ?_, ?_⟩
  · intro m
    rw [Recognition.mem_sorted, List.mem_append]
  · intro hnil
    rw [Recognition.sorted_eq_nil] at hnil
    rw [ht, hnil, Request.failure_nil]
  · intro hne
    have hlisted : e.allowed ++ e'.allowed ≠ [] := mt Recognition.sorted_eq_nil.2 hne
    cases hm : request.method with
    | none =>
      -- a failure without a method lists none, so nothing would be told
      obtain ⟨-, rfl⟩ := recognize_eq_error.1 ha
      obtain ⟨-, rfl⟩ := recognize_eq_error.1 hb
      simp only [Request.failure, hm] at hlisted
      exact absurd rfl hlisted
    | some method =>
      refine ⟨method, rfl, ?_⟩
      rw [ht, Request.failure_of_ne_nil hm hlisted]

/-! ## Generation -/

/-- The first link is that of the first routes, or else of the others. -/
theorem firstLink?_append (x : Intent) (routes routes' : List Route) :
    firstLink? x (routes ++ routes') = (firstLink? x routes).or (firstLink? x routes') := by
  induction routes with
  | nil => rfl
  | cons r routes ih =>
    rw [List.cons_append, firstLink?, firstLink?]
    split
    · rw [ih, Option.or_assoc]
    · exact ih

/-- Without a selected route, the first table generates the link, or else the second one. -/
theorem generate_append (h : t.routes = a.routes ++ b.routes) {options recalled : Params}
    (hselector : Params.givenParam? options Reserved.useRoute = none) :
    t.generate options recalled =
      match a.generate options recalled with
      | .ok link => .ok link
      | .error _ => b.generate options recalled := by
  simp only [generate, hselector, generateAny, h, firstLink?_append]
  cases firstLink? (Intent.normalize none ⟨Reserved.strip options, recalled⟩) a.routes <;> rfl

/-! ## More routes -/

theorem routes_foldl_append (t : Table) (routes : List Route) :
    (routes.foldl append t).routes = t.routes ++ routes := by
  induction routes generalizing t with
  | nil => exact (List.append_nil _).symm
  | cons r routes ih =>
    rw [List.foldl_cons, ih, append, List.append_assoc]
    rfl

/-- A table with the routes of `a` and then those of `b` recognises what `a` recognises, then what
`b` recognises. Otherwise it tells the methods that either of them tells, in order and each once,
or, when neither tells any, that no route fits. Without a selected route it generates what `a`
generates, and otherwise what `b` does or fails to. So an answer that succeeds stays when routes are
appended. -/
theorem answers_append (h : t.routes = a.routes ++ b.routes) :
    (∀ request : Request,
      (∀ params, a.recognize request = .ok params → t.recognize request = .ok params) ∧
      ∀ e, a.recognize request = .error e →
        (∀ params, b.recognize request = .ok params → t.recognize request = .ok params) ∧
        ∀ e', b.recognize request = .error e' → ∃ methods : List Method,
          methods.Pairwise Method.Before ∧
          (∀ m, m ∈ methods ↔ m ∈ e.allowed ∨ m ∈ e'.allowed) ∧
          (methods = [] →
            t.recognize request = .error (.notFound (Path.normalize request.path))) ∧
          (methods ≠ [] → ∃ method, request.method = some method ∧
            t.recognize request =
              .error (.methodNotAllowed (Path.normalize request.path) method methods))) ∧
    (∀ options recalled, Params.givenParam? options Reserved.useRoute = none →
      t.generate options recalled =
        match a.generate options recalled with
        | .ok link => .ok link
        | .error _ => b.generate options recalled) ∧
    ∀ routes : List Route,
      (∀ request params, t.recognize request = .ok params →
        (routes.foldl append t).recognize request = .ok params) ∧
      ∀ options recalled link, Params.givenParam? options Reserved.useRoute = none →
        t.generate options recalled = .ok link →
          (routes.foldl append t).generate options recalled = .ok link := by
  refine ⟨fun request => ⟨fun params ha => ?_, fun e ha => ⟨fun params hb => ?_, fun e' hb => ?_⟩⟩,
    fun _ _ hselector => generate_append h hselector, fun routes => ?_⟩
  · rw [recognize_append h, ha]
  · rw [recognize_append h, ha, hb]
  · exact recognize_append_of_error h ha hb
  · have hroutes :
        (routes.foldl append t).routes = t.routes ++ ({ t with routes } : Table).routes :=
      routes_foldl_append t routes
    refine ⟨fun request params hok => ?_, fun options recalled link hselector hok => ?_⟩
    · rw [recognize_append hroutes, hok]
    · rw [generate_append hroutes hselector, hok]

end

/-- People are listed by the first table and created by the second one. Neither lets a client delete
them, and both methods are told; the link to create one is that of the second table. -/
theorem answers_append_people :
    ∃ a b t, empty.draw (peopleDeclarations.take 1) = .ok a ∧
      empty.draw (peopleDeclarations.drop 1) = .ok b ∧ empty.draw peopleDeclarations = .ok t ∧
      t.routes = a.routes ++ b.routes ∧
      t.recognize ⟨"/people".toList, some .delete, none⟩ =
        .error (.methodNotAllowed "/people".toList .delete [.get, .post]) ∧
      t.generate
        (.ofList [(controllerKey, .str "people".toList), (actionKey, .str "create".toList)]) .empty =
          .ok ⟨"/people".toList, .empty⟩ := by
  let a : Table := (empty.draw (peopleDeclarations.take 1)).toOption.getD empty
  let b : Table := (empty.draw (peopleDeclarations.drop 1)).toOption.getD empty
  let t : Table := (empty.draw peopleDeclarations).toOption.getD empty
  let create : Params :=
    .ofList [(controllerKey, .str "people".toList), (actionKey, .str "create".toList)]
  have hroutes : t.routes = a.routes ++ b.routes := by decide +kernel
  obtain ⟨hrecognize, hgenerate, -⟩ := answers_append hroutes
  have hget : a.recognize ⟨"/people".toList, some .delete, none⟩ =
      .error (.methodNotAllowed "/people".toList .delete [.get]) := by decide +kernel
  have hpost : b.recognize ⟨"/people".toList, some .delete, none⟩ =
      .error (.methodNotAllowed "/people".toList .delete [.post]) := by decide +kernel
  have hnone : a.generate create .empty = .error (.noRoute create) := by decide +kernel
  have hlink : b.generate create .empty = .ok ⟨"/people".toList, .empty⟩ := by decide +kernel
  refine ⟨a, b, t, by decide +kernel, by decide +kernel, by decide +kernel, hroutes, ?_, ?_⟩
  · obtain ⟨-, hfailed⟩ := hrecognize ⟨"/people".toList, some .delete, none⟩
    obtain ⟨methods, hordered, hmem, -, htold⟩ := (hfailed _ hget).2 _ hpost
    have hmethods : methods = [.get, .post] := by
      refine Method.eq_of_pairwise_before hordered (by decide) fun m => (hmem m).trans ?_
      cases m <;> decide
    obtain ⟨method, hmethod, hanswer⟩ := htold (by rw [hmethods]; decide)
    cases hmethod
    rw [hanswer, hmethods]
    decide +kernel
  · rw [hgenerate create .empty (by decide +kernel), hnone, hlink]

end Table

end Routing
