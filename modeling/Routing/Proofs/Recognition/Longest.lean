import Mathlib.Data.Nat.Find
import Routing.Proofs.Namespaces.Feasible
import Routing.Proofs.Recognition.Components
import Routing.Proofs.Table

/-!
# The longest namespace

The route to every action of every controller leaves it to the known namespaces where the controller
ends in a path. Several of them may fit, and then the longest one does: its alternative is tried
before the others, and is given up only when the rest of the path does not fit behind it.

* `wildDeclaration`, `Route.compile_wild` — the route
* `Namespaces.expr_wild` — the expression for its paths
* `Namespaces.find_wild` — what it is matched with
* `Table.recognize_longest` — what is recognised
-/

namespace Routing

open Regex Routing.Path

/-! ## The route -/

/-- The route to every action of every controller. -/
def wildDeclaration : Declaration :=
  { Declaration.blank with path := ":controller/:action/:id".toList }

/-- Its segments, where only the controller has a requirement. -/
def wildSegments : List Segment :=
  [.capture controllerKey false, .capture actionKey true, .capture idKey true]

namespace Route

variable [Properties]

/-- The compiled route. -/
def wild (c : Requirement) (matcher : Regex) : Route where
  name := none
  pattern := wildDeclaration.path
  segments := wildSegments
  requirements := Dict.empty.insert controllerKey c
  defaults := .empty
  condition := .any
  host := none
  keys := [controllerKey, actionKey, idKey]
  requiredDefaults := .empty
  matcher
  groups := [controllerKey, actionKey, idKey]

@[simp] theorem matcher_wild (c : Requirement) (m : Regex) : (wild c m).matcher = m := rfl

/-- The declaration compiles to the route with some matcher. -/
theorem compile_wild {c : Requirement} {r : Route} (h : compile wildDeclaration c = .ok r) :
    ∃ m, Regex.compile
        (Matcher.ofSegments (Dict.empty.insert controllerKey c) wildSegments).source = .ok m ∧
      r = wild c m := by
  -- all but the expression is worked out from the declaration alone
  have hsteps : compile wildDeclaration c = (do
      let m ← (Regex.compile (Matcher.ofSegments (Dict.empty.insert controllerKey c)
        wildSegments).source).mapError (.matcher wildDeclaration.path)
      return wild c m) := rfl
  rw [hsteps] at h
  obtain ⟨m, hm, h⟩ := bind_eq_ok.1 h
  cases h
  exact ⟨m, mapError_eq_ok.1 hm, rfl⟩

end Route

/-! ## Its expression -/

namespace Namespaces

variable [Properties] {n : Namespaces} {c q rest : List Text} {k : Nat} {start name : Text}

/-- The levels for an action and an id. -/
def tailExpr : Expr := .ofParts (Slot.nested 1 (Slot.slashed [actionKey, idKey]))

/-- The parts of the expression for the paths of the route. -/
def wildParts (n : Namespaces) : List Expr :=
  [.look .start, .set (.single '/'), .group (some (Matcher.groupName 0)) n.controllerExpr,
    tailExpr, .look .stop]

/-- The expression of the route, with the requirement on controllers in its first group. -/
theorem source_wild {q : Requirement} (hq : Requirement.compile (.plain n.source) = .ok q) :
    (Matcher.ofSegments (Dict.empty.insert controllerKey q) wildSegments).source =
      ['^'] ++ (['/'] ++ ("(?P<".toList ++ Matcher.groupName 0 ++ ['>'] ++
        Requirement.fragmentOf n.source false false ++ [')']) ++
          Slot.nestedSource (Dict.empty.insert controllerKey q) 1
            (Slot.slashed [actionKey, idKey])) ++ ['$'] := by
  have hsplit : splitFormat wildSegments = ([.capture controllerKey false] ++
      [.capture actionKey true, .capture idKey true], none) := rfl
  have hopt : ∀ s ∈ [Segment.capture actionKey true, .capture idKey true],
      ∃ name, s = .capture name true := by simp
  rw [Matcher.ofSegments_source hsplit (by simp [Segment.isOptional]) hopt (by simp)]
  -- the controller has its requirement, and the other two the grammar of a component
  have hgrammar : grammarOf (Dict.empty.insert controllerKey q) Matcher.componentGrammar
      controllerKey = Requirement.fragmentOf n.source false false := by
    rw [grammarOf, Dict.get?_insert, if_pos rfl, ← fragment_of_compile hq]
    rfl
  have hfixed : Slot.source (Dict.empty.insert controllerKey q) 0
      (Matcher.fixedSlots [.capture controllerKey false]) =
        ['/'] ++ ("(?P<".toList ++ Matcher.groupName 0 ++ ['>'] ++
          Requirement.fragmentOf n.source false false ++ [')']) := by
    rw [← hgrammar]
    simp [Matcher.fixedSlots, Matcher.requiredSlots, Segment.slots, Slot.source, Slot.groupSource,
      quote, isMeta]
  rw [hfixed]
  rfl

/-- What the expression of the route is read as. -/
theorem expr_wild {q : Requirement} {m : Regex}
    (hq : Requirement.compile (.plain n.source) = .ok q)
    (hm : Regex.compile (Matcher.ofSegments (Dict.empty.insert controllerKey q)
      wildSegments).source = .ok m) : m.expr = .ofParts n.wildParts := by
  have hgroup := n.yields_source.named (Matcher.isGroupName_groupName 0)
    (Matcher.gt_not_mem_groupName 0)
  have hslash : Yields ['/'] [.set (.single '/')] [] := .of_spells (.char rfl)
  have hrequirements : ∀ name ∈ [actionKey, idKey],
      (Dict.empty.insert controllerKey q).get? name = none ∧ name ≠ controllerKey := by
    have hnames : ∀ name ∈ [actionKey, idKey], name ≠ controllerKey := by decide
    intro name hname
    rw [Dict.get?_insert, if_neg (hnames name hname).symm]
    exact ⟨rfl, hnames name hname⟩
  have htail := Slot.yields_slashed hrequirements 1
  have hslots := (hslash.append hgroup (by simp)).append htail (Slot.head?_nestedSource 1 _)
  have hanchored := ((Yields.of_spells .lineStart).append hslots (by simp)).append
    (.of_spells .lineEnd) (by decide)
  have hparsed := m.parsed
  rw [source_of_compile hm, source_wild hq] at hparsed
  exact hanchored.parse hparsed

/-! ## What it is matched with -/

/-- The rest of a path behind the controller. -/
abbrev Rest : Text → Text → Prop := Expr.Can tailExpr Slot.AtEnd

omit [Properties] in
/-- The tail takes at most two components without dots. -/
theorem rest_iff {l s : Text} : Rest l s ↔ ∃ parts : List Text, parts.length ≤ 2 ∧
    (∀ part ∈ parts, Slot.Dotless part) ∧ s = parts.flatMap ('/' :: ·) :=
  Slot.can_slashed (by decide)

omit [Properties] in
/-- The end of the text can follow when nothing is left. -/
theorem can_stop : Expr.Can (.ofParts [.look .stop]) (fun _ _ => True) = Slot.AtEnd := by
  funext l s
  apply propext
  rw [Expr.ofParts, Expr.can_look, and_true]
  show s.head?.isNone = true ↔ s = []
  rw [Option.isNone_iff_eq_none, List.head?_eq_none_iff]

omit [Properties] in
theorem can_tail : Expr.Can (.ofParts [tailExpr, .look .stop]) (fun _ _ => True) = Rest := by
  rw [Expr.can_ofParts_cons, can_stop]

omit [Properties] in
/-- Which texts can stand before the controller name does not depend on what is before them. -/
theorem can_start {l : Text} :
    Expr.Can (.ofParts (startParts start)) Rest l (markedText c) ↔ Leads c start := by
  have hchars (x : Char) : (Slot.chars controllerKey false).mem x = isNameChar x :=
    Slot.mem_chars controllerKey false x
  rw [startParts, Expr.can_text]
  simp only [Expr.ofParts, nameExpr, Expr.can_run, rest_iff, hchars]
  constructor
  · rintro ⟨_, hpath, name, _, rfl, hne, hall, rest, hlen, hrest, rfl⟩
    exact ⟨name, rest, hpath, ⟨hne, hall⟩, hlen, hrest⟩
  · rintro ⟨name, rest, hpath, ⟨hne, hall⟩, hlen, hrest⟩
    exact ⟨_, hpath, name, _, rfl, hne, hall, rest, hlen, hrest, rfl⟩

/-- A path that is matched has a feasible namespace. -/
theorem feasible_of_find (hn : ∀ ns ∈ n.names, '%' ∉ ns) {g : Groups}
    (h : (Expr.ofParts n.wildParts).find? ('/' :: markedText c) = some g) :
    ∃ k, n.Feasible c k := by
  obtain ⟨l, t, r, hpath, hmatches⟩ := Expr.matches_of_find h
  have hcan : Expr.Can (.ofParts n.wildParts) (fun _ _ => True) l (t ++ r) :=
    ⟨t, r, g, rfl, hmatches, trivial⟩
  -- read from the front: the beginning, the slash, one of the starts, and a rest that the tail
  -- takes
  rw [wildParts, Expr.can_ofParts_cons, Expr.can_look, Expr.can_ofParts_cons, Expr.can_set,
    Expr.can_ofParts_cons, can_tail] at hcan
  obtain ⟨hstart, d, s, hs, -, hcontroller⟩ := hcan
  obtain rfl : l = [] := by
    rw [Look.holds, Option.isNone_iff_eq_none] at hstart
    exact List.getLast?_eq_none_iff.1 hstart
  rw [List.nil_append, hs] at hpath
  obtain ⟨-, rfl⟩ := List.cons.inj hpath
  rw [Expr.can_group, controllerExpr, Expr.can_ofBranches] at hcontroller
  obtain ⟨_, hmem, hcan⟩ := hcontroller
  obtain ⟨start, hstart, rfl⟩ := List.mem_map.1 hmem
  obtain ⟨q, hq, rfl⟩ := mem_starts_iff.1 (mem_inOrder.1 hstart)
  exact ⟨_, ((can_start.1 hcan).feasible hn hq).1⟩

/-- Of the feasible namespaces the longest is the one whose alternative is preferred. -/
theorem exists_preferred_of_feasible (hn : ∀ ns ∈ n.names, '%' ∉ ns) (hc : ∀ part ∈ c, part ≠ [])
    (h : n.Feasible c k) (hmax : ∀ j, n.Feasible c j → j ≤ k) :
    ∃ before after, n.inOrder = before ++ slashAfter (c.take k) :: after ∧
      (∀ other ∈ before, ¬ Leads c other) ∧ Leads c (slashAfter (c.take k)) := by
  obtain ⟨q, name, rest, rfl, rfl⟩ := h.exists_eq
  have hrest : ∀ part ∈ rest, part ≠ [] := fun part hpart => hc part (by simp [hpart])
  have hq := (feasible_append.1 h).1
  have hmem : slashAfter q ∈ n.starts := mem_starts_iff.2 ⟨q, hq, rfl⟩
  obtain ⟨before, start, after, horder, hleads, hbefore, hlongest⟩ :=
    exists_preferred ⟨slashAfter q, hmem, h.leads hn hrest⟩
  have hstart : start ∈ n.starts := mem_inOrder.1 (by rw [horder]; simp)
  obtain ⟨q', hq', rfl⟩ := mem_starts_iff.1 hstart
  obtain ⟨hfeasible, htake⟩ := hleads.feasible hn hq'
  -- a shorter one would have the longest begin with it
  have hsplit : q = q' ++ q.drop q'.length := by
    conv_lhs => rw [← List.take_append_drop q'.length q]
    rw [← htake, List.take_append_of_le_length (hmax _ hfeasible), List.length_take,
      Nat.min_eq_left (hmax _ hfeasible)]
  have hmore : slashAfter q = slashAfter q' ++ slashAfter (q.drop q'.length) := by
    rw [← slashAfter_append, ← hsplit]
  have hnil := hlongest _ (hmore ▸ hmem) (hmore ▸ h.leads hn hrest)
  rw [List.take_left, hmore, hnil, List.append_nil]
  exact ⟨before, after, horder, hbefore, hleads⟩

/-- The rest of the path is bound to the action and the id. -/
theorem prefers_tail (h : n.Feasible (q ++ name :: rest) q.length)
    (hrest : ∀ part ∈ rest, part ≠ []) (l : Text) :
    tailExpr.Prefers Slot.AtEnd l ((rest.map mark).flatMap ('/' :: ·)) []
      (Slot.bound 1 (rest.map mark)) := by
  obtain ⟨-, -, hlen, -⟩ := feasible_append.1 h
  exact Slot.prefers_slashed (by decide) (by rwa [List.length_map]) (h.dotless_map hrest)

/-- The controller is matched in the longest feasible namespace. -/
theorem prefers_controller (hn : ∀ ns ∈ n.names, '%' ∉ ns)
    (hc : ∀ part ∈ q ++ name :: rest, part ≠ []) (h : n.Feasible (q ++ name :: rest) q.length)
    (hmax : ∀ j, n.Feasible (q ++ name :: rest) j → j ≤ q.length) :
    n.controllerExpr.Prefers Rest ['/'] (slashAfter q ++ name)
      ((rest.map mark).flatMap ('/' :: ·)) [] := by
  have hne : ∀ part ∈ rest, part ≠ [] := fun part hpart => hc part (by simp [hpart])
  have hrest (l : Text) : Rest l ((rest.map mark).flatMap ('/' :: ·)) := by
    have := (prefers_tail h hne l).can
    rwa [List.append_nil] at this
  -- the name of the controller ends before the next slash, or with the path
  have hnext : ∀ x ∈ ((rest.map mark).flatMap ('/' :: ·)).head?,
      (Slot.chars controllerKey false).mem x = false := by
    intro x hx
    obtain rfl : x = '/' := by
      cases rest with
      | nil => cases hx
      | cons => exact (Option.some.inj hx).symm
    rw [Slot.mem_chars]
    rfl
  obtain ⟨before, after, horder, hbefore, -⟩ := exists_preferred_of_feasible hn hc h hmax
  obtain ⟨-, ⟨hname, hall⟩, -⟩ := feasible_append.1 h
  have hrun : nameExpr.Prefers Rest (['/'] ++ slashAfter q) name _ [] :=
    Expr.prefers_run hname (fun x hx => (Slot.mem_chars ..).trans (hall x hx)) hnext (hrest _)
  rw [List.take_left] at horder
  rw [controllerExpr, horder, List.map_append, List.map_cons]
  -- the starts before the longest one do not lead through, so that the search settles for it
  refine Expr.prefers_ofBranches ?_ (Expr.prefers_text hrun)
  rw [List.forall_mem_map]
  intro other hother
  rw [List.append_assoc, ← h.markedText_eq hn, can_start]
  exact hbefore other hother

/-- A path is matched as its controller is and what stands behind it. -/
theorem prefers_wild {controller r : Text} {parts : List Text}
    (hcontroller : n.controllerExpr.Prefers Rest ['/'] controller r [])
    (htail : ∀ l, tailExpr.Prefers Slot.AtEnd l r [] (Slot.bound 1 parts)) :
    (Expr.ofParts n.wildParts).Prefers (fun _ _ => True) [] ('/' :: (controller ++ r)) []
      (Slot.bound 0 (controller :: parts)) := by
  have hslash : (CharSet.single '/').mem '/' = true := by simp [CharSet.mem_single]
  have hstop (l : Text) : (Expr.ofParts [.look .stop]).Prefers (fun _ _ => True) l [] [] [] :=
    .look rfl trivial
  have hend (l : Text) : (Expr.ofParts [tailExpr, .look .stop]).Prefers (fun _ _ => True) l r []
      (Slot.bound 1 parts) := by
    have htail := htail l
    rw [← can_stop] at htail
    have := htail.cons (hstop (l ++ r))
    rwa [List.append_nil] at this
  -- put together from the end: each part prefers its text since what comes after can follow
  rw [← can_tail, ← List.append_nil r] at hcontroller
  have hgroup : (Expr.group (some (Matcher.groupName 0)) n.controllerExpr).Prefers _ ['/']
      controller (r ++ []) [(Matcher.groupName 0, controller)] := .named hcontroller
  have hrequired := hgroup.cons (hend _)
  have hpath := Expr.Prefers.cons (l := []) (t := ['/']) (.set hslash hrequired.can) hrequired
  have hwild := Expr.Prefers.cons (e := .look .start) (t := []) (.look rfl hpath.can) hpath
  rwa [List.append_nil, List.append_nil] at hwild

/-- The groups are bound to the controller in the longest feasible namespace and to what follows. -/
theorem find_wild (hn : ∀ ns ∈ n.names, '%' ∉ ns) (hc : ∀ part ∈ c, part ≠ [])
    (h : n.Feasible c k) (hmax : ∀ j, n.Feasible c j → j ≤ k) :
    (Expr.ofParts n.wildParts).find? ('/' :: markedText c) =
      some (Slot.bound 0 (['/'].intercalate (c.take (k + 1)) :: (c.drop (k + 1)).map mark)) := by
  obtain ⟨q, name, rest, rfl, rfl⟩ := h.exists_eq
  have hne : ∀ part ∈ rest, part ≠ [] := fun part hpart => hc part (by simp [hpart])
  have hpath : '/' :: markedText (q ++ name :: rest) =
      '/' :: (slashAfter q ++ name ++ (rest.map mark).flatMap ('/' :: ·)) ++ [] := by
    rw [h.markedText_eq hn, List.append_nil, List.append_assoc]
  have hcontroller : ['/'].intercalate (q ++ [name]) = slashAfter q ++ name :=
    (intercalate_append_cons q name []).trans (by simp)
  rw [hpath, take_name, drop_name, hcontroller]
  exact Expr.find_of_prefers (prefers_wild (prefers_controller hn hc h hmax) (prefers_tail h hne))

end Namespaces

/-! ## What is recognised -/

/-- The parameters of a controller and of an action and an id behind it. -/
def wildParams (controller : Text) (rest : List Text) : Params :=
  .ofList ([(controllerKey, .str controller), (actionKey, .str (rest[0]?.getD indexAction))] ++
    rest[1]?.toList.map fun id => (idKey, .str id))

/-- A decoded path is spelled by the texts of its components. -/
theorem Request.decoded_eq_markedText (request : Request) : request.decoded =
    '/' :: markedText ((components (beforeQuery request.path)).map Percent.decode) := by
  rw [decoded, decode_normalize_eq_mark]
  split
  · next hnil =>
    rw [hnil]
    rfl
  · next hne =>
    rw [markedText, ← ofComponents, ofComponents_eq_flatMap (by simpa using hne)]
    simp only [List.flatMap_map]

namespace Route

variable [Properties] {c : Requirement} {m : Regex} {controller : Text} {rest : List Text}
variable {request : Request}

/-- What the groups are bound to becomes the parameters. -/
theorem accepted_wild (hm : m.expr.find? request.decoded =
      some (Slot.bound 0 (controller :: rest.map mark))) (hplain : '%' ∉ controller)
    (hrest : rest.length ≤ 2) :
    request.accepted? (wild c m) = some (wildParams controller rest) := by
  have hcaptured (name text : Text) :
      (wild c m).capturedValue name text = .str (restore text) := by
    rw [capturedValue, if_neg]
    simp [isGlob, wild, wildSegments]
  have hlookup (i : Nat) : Dict.lookup (Matcher.groupName i)
      (Slot.bound 0 (controller :: rest.map mark)) = (controller :: rest.map mark)[i]? := by
    rw [lookup_bound, if_pos (Nat.zero_le i), Nat.sub_zero]
  have haccepts : (wild c m).accepts request.method = true := by cases request.method <;> rfl
  have hhost : (wild c m).admitsHost request.host = true := rfl
  have hgroups : (wild c m).groups = [controllerKey, actionKey, idKey] := rfl
  rw [Request.accepted?, if_pos haccepts, candidate?, if_pos hhost, match?, Regex.match?,
    matcher_wild, hm, Option.map_some, hgroups]
  simp only [overlayGroups, hlookup, hcaptured]
  conv_rhs => rw [← restore_of_plain hplain]
  -- at most an action and an id are left, and each is put back by itself
  cases rest with
  | nil => rfl
  | cons action rest =>
    conv_rhs => rw [← restore_mark action]
    cases rest with
    | nil => rfl
    | cons id rest =>
      obtain rfl : rest = [] := by simpa using hrest
      conv_rhs => rw [← restore_mark id]
      rfl

end Route

namespace Table

section

variable [Properties] {n : Namespaces} {t : Table}

/-- The table has the one route, with the alternatives of its namespaces. -/
theorem routes_of_draw_wild (hdraw : (ofNamespaces n).draw [wildDeclaration] = .ok t) :
    ∃ c m, t.routes = [Route.wild c m] ∧ m.expr = .ofParts n.wildParts := by
  have hroutes := draw_eq_ok hdraw
  obtain ⟨r, _, ⟨c, hc, hr⟩, hnone, hone⟩ := List.forall₂_cons_left_iff.1 hroutes
  rw [List.forall₂_nil_left_iff.1 hnone] at hone
  obtain ⟨m, hm, rfl⟩ := Route.compile_wild hr
  exact ⟨c, m, hone, Namespaces.expr_wild hc hm⟩

/-- In a table of nothing but the route to every action of every controller, a request is recognised
when its path leaves a name for the controller behind a known namespace, or behind none, and at most
an action and an id behind it. The controller is read in the longest such namespace. -/
theorem recognize_longest (hdraw : (ofNamespaces n).draw [wildDeclaration] = .ok t)
    (hn : ∀ ns ∈ n.names, '%' ∉ ns) (request : Request) :
    let c := (components (beforeQuery request.path)).map Percent.decode
    ((∃ params, t.recognize request = .ok params) ↔ ∃ k, n.Feasible c k) ∧
      ∀ k, n.Feasible c k → (∀ j, n.Feasible c j → j ≤ k) →
        t.recognize request =
          .ok (wildParams (['/'].intercalate (c.take (k + 1))) (c.drop (k + 1))) := by
  intro c
  obtain ⟨q, m, hroutes, hm⟩ := routes_of_draw_wild hdraw
  have hdecoded : request.decoded = '/' :: markedText c := request.decoded_eq_markedText
  have hrecognize (params : Params) :
      t.recognize request = .ok params ↔ request.accepted? (.wild q m) = some params := by
    rw [recognize_eq_findSome, hroutes, List.findSome?_cons, List.findSome?_nil]
    cases request.accepted? (.wild q m) <;> simp
  have hc : ∀ part ∈ c, part ≠ [] := by
    rw [List.forall_mem_map]
    exact fun part hpart => decode_ne_nil (mem_components hpart).1
  have hlongest : ∀ k, n.Feasible c k → (∀ j, n.Feasible c j → j ≤ k) →
      t.recognize request =
        .ok (wildParams (['/'].intercalate (c.take (k + 1))) (c.drop (k + 1))) := by
    intro k hk hmax
    rw [hrecognize]
    refine Route.accepted_wild ?_ (hk.percent_not_mem hn) hk.rest
    rw [hm, hdecoded]
    exact Namespaces.find_wild hn hc hk hmax
  refine ⟨⟨?_, ?_⟩, hlongest⟩
  -- whatever is found comes from a feasible split
  · rintro ⟨params, hparams⟩
    obtain ⟨r, hr⟩ := recognize_eq_ok.1 hparams
    have hmem := hr.mem
    rw [hroutes, List.mem_singleton] at hmem
    subst hmem
    obtain ⟨captured, hmatch, -⟩ := hr.match?
    obtain ⟨g, hg, -⟩ := Option.map_eq_some_iff.1 hmatch
    rw [Route.matcher_wild, Regex.match?, hm, hdecoded] at hg
    exact Namespaces.feasible_of_find hn hg
  -- among the feasible splits there is a longest one
  · rintro ⟨k, hk⟩
    classical
    let longest := Nat.findGreatest (n.Feasible c) c.length
    have hfeasible : n.Feasible c longest := Nat.findGreatest_spec (Nat.le_of_lt hk.lt) hk
    exact ⟨_, hlongest longest hfeasible fun j hj => Nat.le_findGreatest (Nat.le_of_lt hj.lt) hj⟩

end

/-- Of two namespaces that the path begins with, the longer one is that of the controller, though
the path could also be read with the shorter one, or with none. -/
theorem recognize_longest_admin :
    ∃ t, (ofNamespaces (.ofList ["admin".toList, "admin/users".toList])).draw [wildDeclaration] =
        .ok t ∧
      t.recognize ⟨"/admin/users/list".toList, none, none⟩ =
        .ok (.ofList [(controllerKey, .str "admin/users/list".toList),
          (actionKey, .str "index".toList)]) := by
  -- the names are listed in the order of their lengths, so that evaluation need not sort them
  let n : Namespaces := .ofList ["admin".toList, "admin/users".toList]
  let alternatives : List Text := [Namespaces.alternative "admin/users".toList,
    Namespaces.alternative "admin".toList, Namespaces.controllerName]
  have hperm : alternatives.Perm
      (n.names.map Namespaces.alternative ++ [Namespaces.controllerName]) := .swap _ _ _
  have hsource := Namespaces.source_of_perm hperm (by decide +kernel)
  let c := (Requirement.compile (.plain (['|'].intercalate alternatives))).toOption.get
    (by decide +kernel)
  have hc : Requirement.compile (.plain n.source) = .ok c := by
    rw [hsource]
    decide +kernel
  let r := (Route.compile wildDeclaration c).toOption.get (by decide +kernel)
  have hr : Route.compile wildDeclaration c = .ok r := by decide +kernel
  obtain ⟨t, hdraw⟩ := exists_draw_singleton hc hr
  have hn : ∀ ns ∈ n.names, '%' ∉ ns := by decide +kernel
  have hfeasible : n.Feasible ["admin".toList, "users".toList, "list".toList] 2 :=
    ⟨.inr ⟨"admin/users".toList, by decide +kernel, by decide +kernel⟩,
      ⟨"list".toList, rfl, by decide, List.all_eq_true.1 (by decide)⟩, by decide, by decide⟩
  obtain ⟨-, hlongest⟩ := recognize_longest hdraw hn ⟨"/admin/users/list".toList, none, none⟩
  have hcomponents : (components (beforeQuery "/admin/users/list".toList)).map Percent.decode =
      ["admin".toList, "users".toList, "list".toList] := by decide +kernel
  rw [hcomponents] at hlongest
  exact ⟨t, hdraw, hlongest 2 hfeasible fun j hj => Nat.le_of_lt_succ hj.lt⟩

end Table

end Routing
