import Routing.Proofs.Namespaces
import Routing.Proofs.Path.Slash
import Routing.Proofs.Recognition
import Routing.Proofs.Route.Guarded
import Routing.Proofs.Table

/-!
# Requirements of recognised requests

Where a parameter of the route that recognises a request has a requirement, the text that the path
has for it, still with placeholders, is accepted by the requirement; so is the value, unless it has
a slash or a percent sign.

* `Table.guarded_of_draw` — the routes of a table of declarations
* `Table.accepts_of_recognize` — requirements hold for the texts in a path
-/

namespace Routing.Table

section

variable [Properties] {t t' : Table} {ds : List Declaration} {request : Request} {r : Route}
variable {params : Params}

/-- A table of declarations whose requirements read by themselves has guarded routes. -/
theorem guarded_of_draw (hdraw : t.draw ds = .ok t') (hclosed : ∀ d ∈ ds, d.isClosed = true)
    (hr : r ∈ t'.routes) : r.Guarded := by
  obtain ⟨d, hd, c, hc, hcompile⟩ := declared_of_draw hdraw hr
  exact Route.guarded_of_compile hcompile (hclosed d hd) (Namespaces.embeds hc)

/-- Where every requirement reads by itself, a request is recognised by a route whose requirements
accept the texts that the path has for its parameters, unless words are compared across the pieces
of a component. A value is such a text with the placeholders replaced, and it is accepted itself
when it has neither a slash nor a percent sign. -/
theorem accepts_of_recognize (hdraw : t.draw ds = .ok t')
    (hclosed : ∀ d ∈ ds, d.isClosed = true) (h : t'.recognize request = .ok params) :
    ∃ r, t'.RecognizedBy request r params ∧
      ∀ k raw q, r.Captures request.decoded k raw → r.isGlob k = false →
        r.requirements.get? k = some q → q.seesWords = false ∨ r.StandsAlone k →
        params.get? k = some (.str (Path.restore raw)) ∧ q.accepts raw = true ∧
          ('/' ∉ Path.restore raw → '%' ∉ Path.restore raw →
            q.accepts (Path.restore raw) = true) := by
  obtain ⟨r, hr⟩ := recognize_eq_ok.1 h
  refine ⟨r, hr, fun k raw q hcaptures hglob hq hwords => ?_⟩
  -- the route found is guarded, so that what it captures is accepted by its requirement
  have hguarded := guarded_of_draw hdraw hclosed hr.mem
  obtain ⟨captured, hmatch, rfl⟩ := hr.match?
  have hvalue := hcaptures.get? hguarded.toCompiled hmatch
  rw [Route.capturedValue, hglob] at hvalue
  have haccepts := hguarded.accepts hcaptures hq hwords
  refine ⟨Recognition.get?_complete hvalue, haccepts, fun hslash hpercent => ?_⟩
  rwa [Path.restore_eq_self hslash hpercent]

end

/-- Files whose names have no slash. -/
def filesDeclaration : Declaration :=
  { Declaration.blank with
    path := "files/:name".toList
    defaults := .ofList [(controllerKey, .str "files".toList), (actionKey, .str "show".toList)]
    requirements := .ofList [("name".toList, .plain "[^/]+".toList)] }

/-- A path with a slash in its second component. -/
def filesRequest : Request := ⟨"/files/a%2Fb".toList, none, none⟩

/-- An escaped slash comes back only after the requirement has been met without it. -/
theorem accepts_of_recognize_files :
    ∃ t params r q, empty.draw [filesDeclaration] = .ok t ∧
      t.recognize filesRequest = .ok params ∧ t.RecognizedBy filesRequest r params ∧
      r.requirements.get? "name".toList = some q ∧
      params.get? "name".toList = some (.str "a/b".toList) ∧
      q.accepts "a%2Fb".toList = true ∧ q.accepts "a/b".toList = false := by
  let t : Table := (empty.draw [filesDeclaration]).toOption.getD empty
  let params : Params := .ofList [(controllerKey, .str "files".toList),
    (actionKey, .str "show".toList), ("name".toList, .str "a/b".toList)]
  have hdraw : empty.draw [filesDeclaration] = .ok t := by decide +kernel
  have hrecognize : t.recognize filesRequest = .ok params := by decide +kernel
  have hclosed : ∀ d ∈ [filesDeclaration], d.isClosed = true := by decide +kernel
  obtain ⟨r, hr, haccepts⟩ := accepts_of_recognize hdraw hclosed hrecognize
  -- the one route of the table captures the text before its placeholder is put back
  have hroute : ∀ r ∈ t.routes,
      r.matcher.match? filesRequest.decoded =
          some [(Matcher.groupName 0, "a%2Fb".toList)] ∧
        r.groups = ["name".toList] ∧ r.isGlob "name".toList = false ∧
        (r.requirements.get? "name".toList).any (fun q =>
          !q.seesWords && !q.accepts "a/b".toList) = true := by
    decide +kernel
  obtain ⟨hmatch, hgroups, hglob, hany⟩ := hroute r hr.mem
  obtain ⟨q, hq, hq'⟩ := (Option.any_eq_true _ _).1 hany
  have hcaptures : r.Captures filesRequest.decoded "name".toList "a%2Fb".toList :=
    ⟨_, 0, hmatch, by rw [hgroups]; rfl, rfl⟩
  have hq' : q.seesWords = false ∧ q.accepts "a/b".toList = false := by simpa using hq'
  obtain ⟨hvalue, haccepted, -⟩ := haccepts _ _ q hcaptures hglob hq (.inl hq'.1)
  exact ⟨t, params, r, q, hdraw, hrecognize, hr, hq, hvalue, haccepted, hq'.2⟩

end Routing.Table
