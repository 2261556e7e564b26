import Routing.Proofs.Method
import Routing.Proofs.Recognition
import Routing.Proofs.Route.Compile
import Routing.Proofs.Table

/-!
# Methods of a path

Whether a path is recognised depends on the method only through the conditions of the routes that
fit it. When they all refuse a method, exactly the methods that are told would be served; when no
route fits, no method is.

* `Method.Before`, `Method.before_iff` — the order of the methods, which is that of their
  declaration
* `Recognition.pairwise_sorted`, `Recognition.mem_sorted` — the methods that are told are in order
  and each once, which `Method.eq_of_pairwise_before` shows to determine them
* `Table.recognize_methods` — what a failure tells about the other methods
-/

namespace Routing

/-! ## Methods in order -/

/-- The first method stands before the second one in messages. -/
def Method.Before (a b : Method) : Prop := all.idxOf a < all.idxOf b

instance : DecidableRel Method.Before := fun _ _ => Nat.decLt _ _

/-- Methods stand in the order in which they are declared. -/
theorem Method.before_iff (a b : Method) : a.Before b ↔ a.ctorIdx < b.ctorIdx := by
  cases a <;> cases b <;> decide

/-- Methods in order, each once, are determined by which they are. -/
theorem Method.eq_of_pairwise_before {methods methods' : List Method}
    (h : methods.Pairwise Before) (h' : methods'.Pairwise Before)
    (hmem : ∀ m, m ∈ methods ↔ m ∈ methods') : methods = methods' := by
  have hne {a b : Method} (hab : a.Before b) : a ≠ b := by
    rintro rfl
    exact Nat.lt_irrefl _ hab
  have hperm : methods.Perm methods' :=
    (List.perm_ext_iff_of_nodup (h.imp hne) (h'.imp hne)).2 hmem
  exact hperm.eq_of_pairwise (fun a b _ _ hab hba => absurd hba (Nat.lt_asymm hab)) h h'

namespace Recognition

/-- The methods told are in order, each one once. -/
theorem pairwise_sorted (methods : List Method) : (sorted methods).Pairwise Method.Before :=
  List.Pairwise.filter _ (by decide)

/-- The methods that are told are those that were listed. -/
theorem mem_sorted {methods : List Method} {m : Method} : m ∈ sorted methods ↔ m ∈ methods := by
  rw [sorted, List.mem_filter, decide_eq_true_iff, and_iff_right (Method.mem_all m)]

theorem sorted_eq_nil {methods : List Method} : sorted methods = [] ↔ methods = [] := by
  simp only [List.eq_nil_iff_forall_not_mem, mem_sorted]

end Recognition

/-! ## One path under different methods -/

theorem Route.accepts_head [Properties] (r : Route) :
    r.accepts (some .head) = r.accepts (some .get) := by
  rw [accepts, accepts, Option.all_some, Option.all_some]
  cases r.condition <;> rfl

/-- A route that refuses a method lists the methods that it accepts. -/
theorem Route.accepts_iff_of_refuses [Properties] {r : Route} {method : Option Method}
    (h : r.accepts method = false) (m : Method) :
    r.accepts (some m) = true ↔ m.effective ∈ r.condition.methods := by
  cases method with
  | none => cases h
  | some m' =>
    simp only [accepts, Option.all_some] at h ⊢
    cases hc : r.condition with
    | any =>
      rw [hc] at h
      cases h
    | only methods => exact decide_eq_true_iff

namespace Table

section

variable [Properties] {t : Table} {path : Text} {host : Option Text} {method : Option Method}

/-- Where each route that fits refuses a method, a method is refused unless it is among those that
they list. -/
theorem recognize_of_refused
    (hrefused : ∀ r ∈ t.routes, Request.Fits ⟨path, method, host⟩ r → r.accepts method = false)
    (m : Method) :
    (m.effective ∈ Request.offered ⟨path, method, host⟩ t.routes →
        ∃ params, t.recognize ⟨path, some m, host⟩ = .ok params) ∧
      (m.effective ∉ Request.offered ⟨path, method, host⟩ t.routes →
        t.recognize ⟨path, some m, host⟩ = .error (Request.failure ⟨path, some m, host⟩
          (Request.offered ⟨path, method, host⟩ t.routes))) := by
  -- a listed method finds the route that lists it, and any other is refused by all of them
  constructor
  · intro hm
    obtain ⟨r, hr, hfits, hlisted⟩ := Request.mem_offered.1 hm
    exact exists_recognize_eq_ok.2
      ⟨r, hr, hfits, (Route.accepts_iff_of_refuses (hrefused r hr hfits) m).2 hlisted⟩
  · intro hm
    refine recognize_eq_error.2 ⟨fun r hr hfits => Bool.eq_false_iff.2 fun haccepts => hm ?_, rfl⟩
    exact Request.mem_offered.2
      ⟨r, hr, hfits, (Route.accepts_iff_of_refuses (hrefused r hr hfits) m).1 haccepts⟩

/-- A failure that tells methods comes from routes that fit and refuse the method. -/
theorem refused_of_methodNotAllowed {request : Request} {path' : Text} {m : Method}
    {allowed : List Method} (h : t.recognize request = .error (.methodNotAllowed path' m allowed)) :
    (∀ r ∈ t.routes, request.Fits r → r.accepts request.method = false) ∧
      request.offered t.routes ≠ [] ∧ allowed = Recognition.sorted (request.offered t.routes) := by
  obtain ⟨hrefused, herror⟩ := recognize_eq_error.1 h
  refine ⟨hrefused, ?_⟩
  unfold Request.failure at herror
  split at herror
  · next hoffered =>
    cases herror
    rw [hoffered]
    exact ⟨List.cons_ne_nil _ _, rfl⟩
  · cases herror

/-- When a path is not found under one method, no compiled route fits it. -/
theorem not_fits_of_notFound (ht : t.Compiled) {request : Request} {path' : Text}
    (h : t.recognize request = .error (.notFound path')) : ∀ r ∈ t.routes, ¬ request.Fits r := by
  intro r hr hfits
  obtain ⟨hrefused, herror⟩ := recognize_eq_error.1 h
  have hrefuses := hrefused r hr hfits
  obtain ⟨d, c, hcompile⟩ := ht r hr
  have hlisted := MethodCondition.listed_of_tokens (Route.condition_of_compile hcompile)
  cases hmethod : request.method with
  | none =>
    rw [hmethod] at hrefuses
    cases hrefuses
  | some m =>
    -- the route refuses the method, so that its condition lists one that would be told
    cases hcondition : r.condition with
    | any =>
      rw [hmethod, Route.accepts, Option.all_some, hcondition] at hrefuses
      cases hrefuses
    | only methods =>
      obtain ⟨m', hm'⟩ := List.exists_mem_of_ne_nil _ (hlisted _ hcondition).1
      have hoffered : m' ∈ request.offered t.routes :=
        Request.mem_offered.2 ⟨r, hr, hfits, by rw [hcondition]; exact hm'⟩
      rw [Request.failure_of_ne_nil hmethod (List.ne_nil_of_mem hoffered)] at herror
      cases herror

/-- In a table of compiled routes, what is told about a method that is not allowed holds for every
method: those that are told, in order and without `HEAD`, are recognised and all others fail in the
same way, and the path is recognised when no method is given. A path that is not found under one
method is found under none. `HEAD` is answered like `GET`. -/
theorem recognize_methods (ht : t.Compiled) (path : Text) (host : Option Text) :
    (∀ m path' m' allowed,
      t.recognize ⟨path, some m, host⟩ = .error (.methodNotAllowed path' m' allowed) →
        allowed ≠ [] ∧ allowed.Pairwise Method.Before ∧ .head ∉ allowed ∧
          (∃ params, t.recognize ⟨path, none, host⟩ = .ok params) ∧
            ∀ m,
              (m.effective ∈ allowed → ∃ params, t.recognize ⟨path, some m, host⟩ = .ok params) ∧
                (m.effective ∉ allowed → t.recognize ⟨path, some m, host⟩ =
                  .error (.methodNotAllowed (Path.normalize path) m allowed))) ∧
      (∀ method path', t.recognize ⟨path, method, host⟩ = .error (.notFound path') →
        ∀ method, t.recognize ⟨path, method, host⟩ = .error (.notFound (Path.normalize path))) ∧
      ∀ params, t.recognize ⟨path, some .head, host⟩ = .ok params ↔
        t.recognize ⟨path, some .get, host⟩ = .ok params := by
  refine ⟨?_, ?_, ?_⟩
  -- the methods told are those that the routes list which fit and refuse
  · intro m path' m' allowed h
    obtain ⟨hrefused, hoffered, rfl⟩ := refused_of_methodNotAllowed h
    obtain ⟨listed, hlisted⟩ := List.exists_mem_of_ne_nil _ hoffered
    obtain ⟨r, hr, hfits, -⟩ := Request.mem_offered.1 hlisted
    refine ⟨?_, Recognition.pairwise_sorted _, ?_, ?_, fun m => ?_⟩
    · exact List.ne_nil_of_mem (Recognition.mem_sorted.2 hlisted)
    · rw [Recognition.mem_sorted]
      intro hhead
      obtain ⟨r, hr, -, hlisted⟩ := Request.mem_offered.1 hhead
      obtain ⟨d, c, hcompile⟩ := ht r hr
      cases hcondition : r.condition with
      | any =>
        rw [hcondition] at hlisted
        cases hlisted
      | only methods =>
        rw [hcondition] at hlisted
        exact (MethodCondition.listed_of_tokens (Route.condition_of_compile hcompile) _
          hcondition).2 hlisted
    · exact exists_recognize_eq_ok.2 ⟨r, hr, hfits, rfl⟩
    · have hfailure : Request.failure ⟨path, some m, host⟩ _ = _ :=
        Request.failure_of_ne_nil rfl hoffered
      rw [Recognition.mem_sorted, ← hfailure]
      exact recognize_of_refused hrefused m
  -- no route fits, which does not depend on the method
  · intro method path' h method'
    have hnone := not_fits_of_notFound ht h
    refine recognize_eq_error.2 ⟨fun r hr hfits => absurd hfits (hnone r hr), ?_⟩
    have hoffered : Request.offered ⟨path, method', host⟩ t.routes = [] := by
      refine List.eq_nil_iff_forall_not_mem.2 fun m hm => ?_
      obtain ⟨r, hr, hfits, -⟩ := Request.mem_offered.1 hm
      exact hnone r hr hfits
    rw [hoffered, Request.failure_nil]
  -- a head request is accepted by the same routes
  · intro params
    have hhead : Request.accepted? ⟨path, some .head, host⟩ =
        Request.accepted? ⟨path, some .get, host⟩ := by
      funext r
      rw [Request.accepted?, Request.accepted?, Route.accepts_head]
      rfl
    rw [recognize_eq_findSome, recognize_eq_findSome, hhead]

end

/-- People are listed with `GET` and created with `POST`. -/
def peopleDeclarations : List Declaration :=
  [("index", "get"), ("create", "post")].map fun (action, method) =>
    { Declaration.blank with
      path := "people".toList
      defaults := .ofList
        [(controllerKey, .str "people".toList), (actionKey, .str action.toList)]
      methods := [method.toList] }

/-- A request to delete is told of the two methods; `HEAD` is served, and `PUT` fails as `DELETE`
does. -/
theorem recognize_methods_people :
    ∃ t, empty.draw peopleDeclarations = .ok t ∧
      t.recognize ⟨"/people/".toList, some .delete, none⟩ =
        .error (.methodNotAllowed "/people".toList .delete [.get, .post]) ∧
      (∃ params, t.recognize ⟨"/people/".toList, some .head, none⟩ = .ok params) ∧
      t.recognize ⟨"/people/".toList, some .put, none⟩ =
        .error (.methodNotAllowed "/people".toList .put [.get, .post]) ∧
      t.recognize ⟨"/pets".toList, some .put, none⟩ = .error (.notFound "/pets".toList) ∧
      t.recognize ⟨"/pets".toList, none, none⟩ = .error (.notFound "/pets".toList) := by
  let t : Table := (empty.draw peopleDeclarations).toOption.getD empty
  have hdraw : empty.draw peopleDeclarations = .ok t := by decide +kernel
  have hrefused : t.recognize ⟨"/people/".toList, some .delete, none⟩ =
      .error (.methodNotAllowed "/people".toList .delete [.get, .post]) := by decide +kernel
  have hmissing : t.recognize ⟨"/pets".toList, some .put, none⟩ =
      .error (.notFound "/pets".toList) := by decide +kernel
  have hpath : Path.normalize "/people/".toList = "/people".toList := by decide +kernel
  have hpets : Path.normalize "/pets".toList = "/pets".toList := by decide +kernel
  obtain ⟨hallowed, -, -⟩ :=
    recognize_methods (compiled_of_draw hdraw) "/people/".toList none
  obtain ⟨-, -, -, -, hmethods⟩ := hallowed _ _ _ _ hrefused
  obtain ⟨-, hnotFound, -⟩ := recognize_methods (compiled_of_draw hdraw) "/pets".toList none
  refine ⟨t, hdraw, hrefused, (hmethods .head).1 (by decide), ?_, hmissing, ?_⟩
  · rw [← hpath]
    exact (hmethods .put).2 (by decide)
  · exact (hnotFound _ _ hmissing none).trans (by rw [hpets])

end Table

end Routing
