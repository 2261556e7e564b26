import Routing.Proofs.Generation.Link
import Routing.Proofs.Namespaces
import Routing.Proofs.Path.Safe
import Routing.Proofs.Route.Compile

/-!
# Values in paths

Values are escaped where a path is rendered, so that nothing in them can end the path. The one
exception is the controller, which stands as it is: its requirement has to keep such characters out,
and the one that namespaces bring does.

* `Route.Plain` — the literals of a route and its controllers need no escaping
* `Route.plain_of_compile`, `Table.plain_of_draw` — routes whose controllers are those of namespaces
* `Route.Plain.safe_of_link?` — the path of a link
* `Table.safe_path` — every path, and every URL of which it is a part
-/

namespace Routing

/-! ## Controllers -/

namespace Namespaces

/-- The characters of a name may stand in a component. -/
theorem isPchar_of_isNameChar {c : Char} (h : isNameChar c = true) : Path.isPchar c = true := by
  rw [isNameChar_iff] at h
  simp only [Path.isPchar, Bool.or_eq_true, Bool.and_eq_true, decide_eq_true_eq]
  rcases h with rfl | h | h | h
  · exact .inr (by decide)
  · exact .inl (.inl (.inl h))
  · exact .inl (.inl (.inr h))
  · exact .inl (.inr h)

variable [Properties]

/-- Whether the namespaces hold characters of segments and slashes only. -/
def Plain (n : Namespaces) : Prop :=
  ∀ ns ∈ n.names, ∀ c ∈ ns, Path.isPchar c = true ∨ c = '/'

/-- A controller in plain namespaces is safe in a path. -/
theorem Plain.safe {n : Namespaces} (h : n.Plain) {t : Text} (ht : n.Holds t) : Path.Safe t := by
  obtain ⟨name, hname, ht⟩ := ht
  have hsafe : Path.Safe name := by
    apply Path.safe_of_forall
    intro c hc
    have := hname.2 c hc
    rw [Slot.allows, if_pos rfl] at this
    exact .inl (isPchar_of_isNameChar this)
  rcases ht with rfl | ⟨ns, hns, rfl⟩
  · exact hsafe
  · exact (Path.safe_of_forall (h ns hns)).append (.slash hsafe)

end Namespaces

/-! ## Routes -/

namespace Route

variable [Properties]

/-- The literals of the route are characters of segments, and its requirement on controllers is that
of namespaces of such characters, or accepts safe texts only. -/
structure Plain (r : Route) : Prop where
  literals : ∀ s ∈ r.segments, ∀ t, Slot.text t ∈ s.slots → ∀ c ∈ t, Path.isPchar c = true
  controller : ∃ q, r.requirements.get? controllerKey = some q ∧
    ((∃ n : Namespaces, Requirement.compile (.plain n.source) = .ok q ∧ n.Plain) ∨
      ∀ t, q.accepts t = true → Path.Safe t)

variable {r : Route} {options recalled : Params} {l : Link}

/-- Every controller that a plain route accepts is safe in a path. -/
theorem Plain.safe_controller (h : r.Plain) : ∃ q, r.requirements.get? controllerKey = some q ∧
    ∀ t, q.accepts t = true → Path.Safe t := by
  obtain ⟨q, hq, ⟨n, hn, hplain⟩ | hsafe⟩ := h.controller
  · refine ⟨q, hq, ?_⟩
    intro t ht
    exact hplain.safe ((Namespaces.accepts_iff_holds hn t).1 ht)
  · exact ⟨q, hq, hsafe⟩

/-- A route without a requirement of its own on controllers is plain when its pattern and the
namespaces hold characters of segments and slashes only. -/
theorem plain_of_compile {d : Declaration} {c : Requirement} {n : Namespaces}
    (hc : Requirement.compile (.plain n.source) = .ok c) (hn : n.Plain)
    (hown : d.requirements.get? controllerKey = none)
    (hpattern : ∀ ch ∈ d.fullPath, Path.isPchar ch = true ∨ ch = '/')
    (hr : compile d c = .ok r) : r.Plain := by
  obtain ⟨defaults, hrequirements, hread, -⟩ := compile_eq_ok hr
  constructor
  case controller =>
    -- the declaration has no requirement on controllers of its own, so the one of the namespaces
    -- holds
    have hget := (get?_compileRequirements hrequirements controllerKey).1 hown
    rw [if_pos rfl] at hget
    exact ⟨c, hget, .inl ⟨n, hc, hn⟩⟩
  case literals =>
    intro s hs t ht ch hch
    have ht := mem_literals_of_mem_slots ht
    obtain ⟨x, hx, hshape, -⟩ := Template.shape_of_read hread
    rw [hx, Template.Parts.segments] at hs
    rcases List.mem_append.1 hs with hs | hs
    · rcases List.mem_append.1 hs with hs | hs
      · obtain ⟨-, part, hpart, hsub⟩ := hshape.literals s hs t ht
        rcases hpattern ch (Path.mem_of_mem_components hpart (hsub ch hch)) with h | rfl
        · exact h
        · exact absurd (hsub _ hch) (Path.mem_components hpart).2
      · -- a component that may be missing is a capture
        obtain ⟨name, rfl⟩ := hshape.optional s hs
        cases ht
    · obtain ⟨name, -, rfl⟩ := List.mem_map.1 hs
      cases ht

end Route

namespace Rendering

variable [Properties] {x : Rendering} {name t : Text} {glob : Bool}

omit [Properties] in
/-- The text of a value other than a controller is escaped. -/
theorem safe_escaped {v : Value} {raw : Text} (h : name = controllerKey → Path.Safe raw) :
    Path.Safe (escaped name v raw) := by
  unfold escaped
  split
  · next hname => exact h hname
  · split
    · apply Path.Safe.intercalate
      intro part hpart
      obtain ⟨item, -, rfl⟩ := List.mem_map.1 hpart
      exact Path.safe_escape item
    · exact Path.safe_escapeParts raw

/-- What a plain route renders for a capture is safe in a path. -/
theorem safe_of_capture? (h : x.route.Plain) (ht : x.capture? name glob = some t) :
    Path.Safe t := by
  obtain ⟨v, raw, -, -, hadmits, rfl⟩ := capture?_eq_some.1 ht
  apply safe_escaped
  intro hname
  obtain ⟨q, hq, hsafe⟩ := h.safe_controller
  rw [admits, hname, hq] at hadmits
  exact hsafe raw hadmits

end Rendering

/-- Setting the format aside adds no segment. -/
theorem mem_of_mem_splitFormat {segments : List Segment} {s : Segment}
    (h : s ∈ (splitFormat segments).1) : s ∈ segments := by
  fun_induction splitFormat segments with
  | case1 => cases h
  | case2 => cases h
  | case3 s' rest hs ih =>
    rcases List.mem_cons.1 h with rfl | h
    · exact List.mem_cons_self
    · exact List.mem_cons_of_mem _ (ih h)

namespace Route

variable [Properties] {r : Route} {options recalled : Params} {l : Link}

/-- The literals of a level are its separator and literals of the route. -/
theorem Plain.safe_literal (h : r.Plain) {m : Nat} {level : Level} (hlevel : level ∈ r.shown m)
    {t : Text} (ht : Slot.text t ∈ level.slots) : Path.Safe t := by
  have hcomponent (s : Segment) (hs : s ∈ (splitFormat r.segments).1)
      (ht : Slot.text t ∈ (Level.component s).slots) : Path.Safe t := by
    rcases List.mem_cons.1 ht with ht | ht
    · cases ht
      exact .slash .nil
    · apply Path.safe_of_forall
      intro c hc
      exact .inl (h.literals s (mem_of_mem_splitFormat hs) t ht c hc)
  -- the level is a required component, an optional one or the format
  rcases List.mem_append.1 hlevel with hlevel | hlevel
  · obtain ⟨s, hs, rfl⟩ := List.mem_map.1 hlevel
    exact hcomponent s (List.takeWhile_subset _ hs) ht
  · rcases List.mem_append.1 (List.mem_of_mem_take hlevel) with hlevel | hlevel
    · obtain ⟨s, hs, rfl⟩ := List.mem_map.1 hlevel
      exact hcomponent s (List.dropWhile_subset _ hs) ht
    · obtain ⟨name, -, rfl⟩ := List.mem_map.1 hlevel
      rcases List.mem_cons.1 ht with ht | ht
      · cases ht
        exact .char rfl .nil
      · cases List.mem_singleton.1 ht

/-- The path of a link is safe. -/
theorem Plain.safe_of_link? (h : r.Plain) (hl : r.link? options recalled = some l) :
    Path.Safe l.path := by
  obtain ⟨shown, used, hlinked⟩ := linked_of_link? hl
  rw [hlinked.path, Level.path]
  split
  · exact .slash .nil
  · apply Path.Safe.flatMap
    intro level hlevel
    apply Path.Safe.flatMap
    intro slot hslot
    -- a path is made of fixed texts and captures, each of which is safe
    cases slot with
    | text t => exact h.safe_literal hlevel hslot
    | capture name glob =>
      have hused := shown_subset hlinked.cut.shown_le hlevel
      obtain ⟨t, ht⟩ := Option.isSome_iff_exists.1 (hlinked.captures level hused name glob hslot)
      have hplain : (r.rendering options recalled).route.Plain := h
      rw [Slot.spell, ← Rendering.text_of_capture? ht]
      exact Rendering.safe_of_capture? hplain ht

end Route

/-! ## Tables -/

namespace Table

section

variable [Properties] {t : Table} {options recalled : Params} {l : Link}

theorem safe_of_generate (h : ∀ r ∈ t.routes, r.Plain)
    (hl : t.generate options recalled = .ok l) : Path.Safe l.path := by
  obtain ⟨r, hr, _, _, hlink⟩ := generate_eq_ok hl
  exact (h r hr).safe_of_link? hlink

omit [Properties] in
/-- A safe path stays safe with a slash at the end. -/
theorem safe_withSlash (options : Params) {path : Text} (h : Path.Safe path) :
    Path.Safe (Url.withSlash options path) := by
  rw [Url.withSlash]
  split
  · exact h.append (.slash .nil)
  · exact h

/-- A URL without origin and script name, in its parts. -/
theorem urlFor_eq_ok {url : Text} (hhost : Params.givenParam? options Reserved.host = none)
    (hscript : Params.givenParam? options Reserved.scriptName = none)
    (h : t.urlFor options recalled = .ok url) :
    ∃ l, t.generate options recalled = .ok l ∧
      url = Url.withSlash options l.path ++ Url.query l.extras ++
        ((Params.givenParam? options Reserved.anchor).map Path.escape).elim [] ('#' :: ·) := by
  obtain ⟨origin, horigin, h⟩ := bind_eq_ok.1 h
  obtain ⟨l, hl, h⟩ := bind_eq_ok.1 h
  -- without a host there is no origin, unless one is insisted on, which fails
  have hempty : origin = [] := by
    rw [Url.origin, hhost] at horigin
    generalize (options.get? Reserved.onlyPath).map Value.isTruthy = only at horigin
    cases only with
    | none =>
      cases horigin
      rfl
    | some only =>
      cases only with
      | false => cases horigin
      | true =>
        cases horigin
        rfl
  refine ⟨l, hl, ?_⟩
  cases h
  rw [hempty, Url.script, hscript, Url.anchor]
  cases Params.givenParam? options Reserved.anchor <;> simp

/-- The routes of a table that is drawn, when nothing in its namespaces and patterns needs escaping
and no declaration has a requirement of its own on controllers. -/
theorem plain_of_draw {t' : Table} {ds : List Declaration} (h : t.draw ds = .ok t')
    (hn : t.namespaces.Plain)
    (hds : ∀ d ∈ ds, d.requirements.get? controllerKey = none ∧
      ∀ ch ∈ d.fullPath, Path.isPchar ch = true ∨ ch = '/') : ∀ r ∈ t'.routes, r.Plain := by
  intro r hr
  obtain ⟨d, hd, c, hc, hcompile⟩ := declared_of_draw h hr
  obtain ⟨hown, hpattern⟩ := hds d hd
  exact Route.plain_of_compile hc hn hown hpattern hcompile

/-- Values cannot end the path of a link: when the literals of the routes and what their
requirements let stand for a controller need no escaping, every path is safe; and in a URL without
origin and script name the path is what stands before the query and the anchor. -/
theorem safe_path (h : ∀ r ∈ t.routes, r.Plain) :
    (∀ l, t.generate options recalled = .ok l → Path.Safe l.path) ∧
      (∀ name l, t.generateNamed name options recalled = .ok l → Path.Safe l.path) ∧
      ∀ url, Params.givenParam? options Reserved.host = none →
        Params.givenParam? options Reserved.scriptName = none →
        t.urlFor options recalled = .ok url →
          ∃ l, t.generate options recalled = .ok l ∧ Url.split url =
            ⟨Url.withSlash options l.path, Url.query? l.extras,
              (Params.givenParam? options Reserved.anchor).map Path.escape⟩ := by
  refine ⟨fun l hl => safe_of_generate h hl, fun name l hl => ?_, ?_⟩
  · obtain ⟨r, hr, _, hlink⟩ := generateSelected_eq_ok hl
    exact (h r (mem_of_named? hr)).safe_of_link? hlink
  intro url hhost hscript hurl
  obtain ⟨l, hl, rfl⟩ := urlFor_eq_ok hhost hscript hurl
  refine ⟨l, hl, ?_⟩
  exact Url.split_safe (safe_withSlash options (safe_of_generate h hl)) l.extras _

end

/-- Actions of controllers, as declared. -/
def actionDeclaration : Declaration :=
  { Declaration.blank with path := ":controller/:action".toList }

/-- Neither a question mark nor a number sign in an action ends the path. -/
theorem safe_path_action :
    let options : Params := .ofList [(controllerKey, .str "user".toList),
      (actionKey, .str "a?b#c".toList), ("q".toList, .str "1".toList),
      (Reserved.anchor, .str "x y".toList)]
    ∃ t, empty.draw [actionDeclaration] = .ok t ∧
      t.urlFor options .empty = .ok "/user/a%3Fb%23c?q=1#x%20y".toList ∧
      Url.split "/user/a%3Fb%23c?q=1#x%20y".toList =
        ⟨"/user/a%3Fb%23c".toList, some "q=1".toList, some "x%20y".toList⟩ := by
  intro options
  let t : Table := (empty.draw [actionDeclaration]).toOption.getD empty
  have hdraw : empty.draw [actionDeclaration] = .ok t := by decide +kernel
  have hurl : t.urlFor options .empty = .ok "/user/a%3Fb%23c?q=1#x%20y".toList := by
    decide +kernel
  refine ⟨t, hdraw, hurl, ?_⟩
  have hplain : ∀ r ∈ t.routes, r.Plain := by
    apply plain_of_draw hdraw
    · intro ns hns
      cases hns
    · intro d hd
      rw [List.mem_singleton.1 hd]
      have hall : (":controller/:action".toList.all fun c => Path.isPchar c || c = '/') = true := by
        decide
      exact ⟨rfl, fun c hc => by simpa using List.all_eq_true.1 hall c hc⟩
  obtain ⟨l, hl, hsplit⟩ := (safe_path hplain).2.2 _ (by decide +kernel) (by decide +kernel) hurl
  have hlink : t.generate options .empty =
      .ok ⟨"/user/a%3Fb%23c".toList, .ofList [("q".toList, .str "1".toList)]⟩ := by
    decide +kernel
  rw [hlink] at hl
  cases hl
  rw [hsplit]
  decide +kernel

end Table

end Routing
