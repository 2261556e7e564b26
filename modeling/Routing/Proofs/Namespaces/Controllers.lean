import Routing.Proofs.Namespaces.Order
import Routing.Proofs.Table.Draw
import Routing.Proofs.Table.Index
import Routing.Proofs.Template.Size

/-!
# The requirement on controllers

Namespaces may have any names. Whatever stands in them is quoted, so that the requirement that is
made of them is never taken for one that is anchored or that switches line anchors on, and it can
only be refused for its size. What it accepts, and its expression, do not hang on the order in which
the namespaces were added.

* `Requirement.Quiet` — a text that is not taken for a flag group
* `Namespaces.compile_source` — the requirement of namespaces is compiled
* `Namespaces.Grown` — namespaces that were added one after the other
* `Namespaces.requirement_of_grown` — the requirement on controllers
-/

namespace Routing

open Regex

/-! ## Screening -/

namespace Requirement

/-- The text switches no line anchors on, and leaves nothing that could switch them on with what
follows it. -/
def Quiet (w : Text) : Prop :=
  ∀ rest, enablesMultiLine false (w ++ rest) = enablesMultiLine false rest

namespace Quiet

variable {w w' : Text}

theorem append (h : Quiet w) (h' : Quiet w') : Quiet (w ++ w') := by
  intro rest
  rw [List.append_assoc, h, h']

theorem char {c : Char} (hslash : c ≠ '\\') (hopen : c ≠ '(') : Quiet [c] := by
  intro rest
  rw [List.singleton_append, enablesMultiLine.eq_def]
  split
  · next h => cases h
  · next h => cases h; exact absurd rfl hslash
  · next h => cases h; exact absurd rfl hopen
  · next h => cases h; rfl

/-- A backslash takes away the meaning of the character after it. -/
theorem escaped (c : Char) : Quiet ['\\', c] := by
  intro rest
  have hslash : enablesMultiLine false (['\\', c] ++ rest) =
      enablesMultiLine true (c :: rest) := rfl
  rw [hslash, enablesMultiLine.eq_def]
  split
  · next h => cases h
  · next h => cases h; rfl
  · next h => cases h; rfl
  · next h => cases h; rfl

/-- A quoted text is quiet. -/
theorem quote (s : Text) : Quiet (Regex.quote s) := by
  induction s with
  | nil => exact fun _ => rfl
  | cons c s ih =>
    have hcons : Regex.quote (c :: s) =
        (if isMeta c then ['\\', c] else [c]) ++ Regex.quote s := rfl
    rw [hcons]
    -- a special character comes after a backslash, any other is none of the two
    split
    · exact (escaped c).append ih
    · next hc =>
      refine append (char ?_ ?_) ih
      · rintro rfl
        exact hc rfl
      · rintro rfl
        exact hc rfl

/-- Quiet alternatives are quiet together. -/
theorem intercalate {ws : List Text} (h : ∀ w ∈ ws, Quiet w) : Quiet (['|'].intercalate ws) := by
  induction ws with
  | nil => exact fun _ => rfl
  | cons w ws ih =>
    obtain ⟨hw, hws⟩ := List.forall_mem_cons.1 h
    cases ws with
    | nil => rwa [List.intercalate_singleton]
    | cons w' ws =>
      rw [List.intercalate_cons_cons]
      exact (hw.append (char (by decide) (by decide))).append (ih hws)

end Quiet

/-- A text that begins with neither start anchor and ends with a plus sign is not anchored. -/
theorem isAnchored_eq_false {p w : Text} (hend : p = w ++ ['+']) (hcaret : p.head? ≠ some '^')
    (hletter : ∀ rest, p ≠ '\\' :: 'A' :: rest) : isAnchored p = false := by
  rw [isAnchored.eq_def]
  split
  · next rest => exact absurd rfl hcaret
  · next rest => exact absurd rfl (hletter rest)
  · have hreverse : p.reverse = '+' :: w.reverse := by rw [hend, List.reverse_append]; rfl
    rw [hreverse]
    rfl

/-- A text that passes the screening is compiled, or refused as an expression. -/
theorem compile_plain [Properties] {p : Text} (hmulti : enablesMultiLine false p = false)
    (hanchored : isAnchored p = false) :
    (∃ c, compile (.plain p) = .ok c) ∨
      ∃ fault, Regex.parse (['^'] ++ fragmentOf p false false ++ ['$']) = .error fault ∧
        compile (.plain p) = .error (.expression fault) := by
  have hoptions : options false false (Source.plain p).flags = .ok (false, false) := rfl
  rw [compile, hoptions]
  simp only [bind, Except.bind, Source.plain, hmulti, hanchored, Bool.false_eq_true, if_false]
  -- what is left that can fail is the expression itself
  split
  · next fault hfault =>
    refine .inr ⟨fault, ?_, rfl⟩
    rw [Regex.compile] at hfault
    split at hfault
    · cases hfault
    · next hparse =>
      cases hfault
      exact hparse
  · exact .inl ⟨_, rfl⟩

end Requirement

namespace Namespaces

section

variable [Properties] {n n' : Namespaces} {inserted other : List Text} {start : Text}

open Requirement (Quiet)

omit [Properties] in
theorem quiet_startingWith (start : Text) : Quiet (startingWith start) :=
  (Quiet.quote start).append fun _ => rfl

/-- The source does not turn on several lines. -/
theorem enablesMultiLine_source (n : Namespaces) :
    Requirement.enablesMultiLine false n.source = false := by
  have hquiet : Quiet n.source := by
    rw [source_eq]
    apply Quiet.intercalate
    rw [List.forall_mem_map]
    exact fun start _ => quiet_startingWith start
  have h := hquiet []
  rwa [List.append_nil] at h

/-- The expression begins with the first alternative and ends with the plus sign of the last. -/
theorem source_ends (n : Namespaces) :
    (∃ start rest, n.source = startingWith start ++ rest) ∧ ∃ w, n.source = w ++ ['+'] := by
  have hne : n.inOrder ≠ [] := List.ne_nil_of_mem (mem_inOrder.2 (mem_starts.2 (.inr rfl)))
  rw [source_eq]
  generalize n.inOrder = starts at hne ⊢
  -- it begins with the first alternative, and ends with the last one, whose name is a run
  constructor
  · obtain ⟨start, starts, rfl⟩ := List.exists_cons_of_ne_nil hne
    cases starts with
    | nil =>
      refine ⟨start, [], ?_⟩
      rw [List.map_singleton, List.intercalate_singleton, List.append_nil]
    | cons start' starts =>
      refine ⟨start, ['|'] ++ ['|'].intercalate ((start' :: starts).map startingWith), ?_⟩
      rw [List.map_cons, List.map_cons, List.intercalate_cons_cons, List.append_assoc]
  · induction starts with
    | nil => exact absurd rfl hne
    | cons start starts ih =>
      cases starts with
      | nil =>
        refine ⟨quote start ++ "[_a-zA-Z0-9]".toList, ?_⟩
        rw [List.map_singleton, List.intercalate_singleton, startingWith, List.append_assoc]
        rfl
      | cons start' starts =>
        obtain ⟨w, hw⟩ := ih (List.cons_ne_nil _ _)
        refine ⟨startingWith start ++ ['|'] ++ w, ?_⟩
        rw [List.map_cons, List.map_cons, List.intercalate_cons_cons, ← List.map_cons, hw,
          List.append_assoc (_ ++ _)]

/-- The source has no anchor at either end. -/
theorem isAnchored_source (n : Namespaces) : Requirement.isAnchored n.source = false := by
  obtain ⟨⟨start, rest, hsource⟩, w, hend⟩ := n.source_ends
  -- the first character is a bracket, or that of a namespace, which is quoted
  have hfirst : n.source.head? ≠ some '^' ∧ ∀ rest, n.source ≠ '\\' :: 'A' :: rest := by
    rw [hsource, startingWith]
    cases start with
    | nil => exact ⟨by rintro ⟨⟩, by rintro _ ⟨⟩⟩
    | cons c start =>
      have hquote : quote (c :: start) = (if isMeta c then ['\\', c] else [c]) ++ quote start := rfl
      rw [hquote]
      split
      · next hc =>
        refine ⟨by simp, fun _ h => ?_⟩
        cases h
        cases hc
      · next hc =>
        constructor
        · intro h
          cases h
          exact hc rfl
        · intro _ h
          have hslash : c = '\\' := (List.cons.inj h).1
          rw [hslash] at hc
          exact hc rfl
  exact Requirement.isAnchored_eq_false hend hfirst.1 hfirst.2

/-! ## Size -/

omit [Properties] in
/-- How large one alternative compiles, by its length. -/
theorem bound_startParts (d : Direction) (start : Text) :
    (Expr.ofParts (startParts start)).bound d ≤ 128 * start.length + 200 := by
  have hparts := Expr.bound_ofParts (d := d) (startParts start)
  have hliteral := Expr.bound_literal (d := d) start
  have hset := Expr.bound_set (d := d) (Slot.chars controllerKey false)
  have hsize : (Slot.chars controllerKey false).sizeBound ≤ 128 := by decide +kernel
  have hname : nameExpr.bound d =
      1 * (Expr.set (Slot.chars controllerKey false)).bound d + 40 := rfl
  rw [startParts, List.map_append, List.sum_append, List.map_singleton,
    List.sum_singleton] at hparts
  rw [startParts]
  omega

/-- How many characters the namespaces have together, with a slash after each. -/
def extent (n : Namespaces) : Nat := (n.names.map fun ns => ns.length + 1).sum

/-- How large the expression compiles, by the length of all namespaces. -/
theorem bound_controllerExpr (n : Namespaces) (d : Direction) :
    n.controllerExpr.bound d ≤ 336 * n.extent + 272 := by
  let cost (start : Text) : Nat := (Expr.ofParts (startParts start)).bound d + 8
  have hbranches : ∀ e ∈ n.inOrder.map (fun start => Expr.ofParts (startParts start)),
      e.branches = [e] := by
    rw [List.forall_mem_map]
    exact fun start _ => Expr.branches_ofParts branches_startParts
  have hname : nameExpr ∈ n.inOrder.map fun start => Expr.ofParts (startParts start) :=
    List.mem_map.2 ⟨[], mem_inOrder.2 (mem_starts.2 (.inr rfl)), rfl⟩
  have hbound := Expr.bound_ofBranches (d := d) hbranches hname rfl
  -- the bound is a sum over the alternatives, in whatever order they stand
  have horder : (n.inOrder.map cost).sum = (n.starts.map cost).sum :=
    ((List.mergeSort_perm _ _).map cost).sum_eq
  have hstarts : ∀ names : List Text, ((names.map (· ++ ['/'])).map cost).sum ≤
      336 * (names.map fun ns => ns.length + 1).sum := by
    intro names
    induction names with
    | nil => exact Nat.le_refl 0
    | cons ns names ih =>
      have hns := bound_startParts d (ns ++ ['/'])
      rw [List.length_append, List.length_singleton] at hns
      simp only [List.map_cons, List.sum_cons, cost] at ih ⊢
      omega
  have hbare := bound_startParts d []
  have hnames := hstarts n.names
  rw [List.map_map] at hbound
  rw [starts, List.map_append, List.sum_append, List.map_singleton, List.sum_singleton] at horder
  have hsum : (n.inOrder.map ((fun e => e.bound d + 8) ∘ fun start =>
    Expr.ofParts (startParts start))).sum = (n.inOrder.map cost).sum := rfl
  simp only [List.length_nil, cost] at hbare horder hnames hsum
  rw [controllerExpr, extent]
  omega

/-- With namespaces that are not too long the expression fits. -/
theorem fits_source (h : n.extent ≤ 30000) :
    (Expr.ofParts [.look .start, n.controllerExpr, .look .stop]).fits = true := by
  rw [Expr.fits, List.all_eq_true]
  intro d _
  have hparts := Expr.bound_ofParts (d := d) [.look .start, n.controllerExpr, .look .stop]
  have hexpr := n.bound_controllerExpr d
  have hgroup : d.groupSize ≤ 64 := by cases d <;> decide
  have hlook (l : Look) : (Expr.look l).bound d = 32 := rfl
  have hsize (e : Expr) : e.size d CharSet.sizeBound = 64 + d.groupSize + e.bound d := rfl
  have hlimit : Expr.sizeLimit = 10485760 := rfl
  simp only [List.map_cons, List.map_nil, List.sum_cons, List.sum_nil, hlook] at hparts
  rw [Bool.or_eq_true, decide_eq_true_iff]
  left
  rw [hsize, hlimit]
  omega

/-- The requirement of namespaces is compiled, unless it is too large. -/
theorem compile_source (n : Namespaces) :
    (∃ c, Requirement.compile (.plain n.source) = .ok c) ∨
      Requirement.compile (.plain n.source) = .error (.expression .size) ∧ 30000 < n.extent := by
  obtain ⟨depth, hdepth, hspells⟩ := n.spells_source
  have hwhole := (Spells.lineStart.append hspells (by simp [Requirement.fragmentOf])).append
    .lineEnd (by decide)
  have hnested : max (max 0 depth) 0 + 1 ≤ Syntax.depthLimit := by
    rw [Syntax.depthLimit]
    omega
  -- it does not nest too deep, so that only its size counts
  have hparse : Regex.parse (['^'] ++ Requirement.fragmentOf n.source false false ++ ['$']) =
      if (Expr.ofParts [.look .start, n.controllerExpr, .look .stop]).fits then
        .ok (.ofParts [.look .start, n.controllerExpr, .look .stop]) else .error .size :=
    (hwhole.parse (by simp)).trans (if_pos hnested)
  rcases Requirement.compile_plain n.enablesMultiLine_source n.isAnchored_source with h | h
  · exact .inl h
  · obtain ⟨fault, hfault, h⟩ := h
    rw [hparse] at hfault
    split at hfault
    · cases hfault
    · next hfits =>
      cases hfault
      refine .inr ⟨h, Nat.lt_of_not_le fun hle => hfits (fits_source hle)⟩

/-! ## Namespaces that were added -/

/-- Namespaces to which these names were added, one after the other. In between the requirement may
have been asked for, and was then kept. -/
inductive Grown : List Text → Namespaces → Prop
  | empty : Grown [] .empty
  | insert {inserted : List Text} {n : Namespaces} (h : Grown inserted n) (name : Text) :
    Grown (inserted ++ [name]) (n.insert name).2
  | asked {inserted : List Text} {n n' : Namespaces} {c : Requirement} (h : Grown inserted n)
    (hc : n.requirement = .ok (c, n')) : Grown inserted n'

/-- The names after one more insertion. -/
theorem mem_names_insert {name ns : Text} :
    ns ∈ (n.insert name).2.names ↔ ns ∈ n.names ∨ ns = bare name ∧ ns ≠ [] := by
  simp only [names, insert, Dict.mem_keys]
  split
  · next h =>
    rw [Bool.or_eq_true] at h
    constructor
    · exact .inl
    · rintro (hns | ⟨rfl, hns⟩)
      · exact hns
      · rcases h with h | h
        · exact absurd (List.isEmpty_iff.1 h) hns
        · exact h
  · next h =>
    rw [Bool.or_eq_true, not_or] at h
    rw [Dict.get?_insert]
    split
    · next heq =>
      subst heq
      simpa using Or.inr (by simpa using h.1)
    · next hne => simp [Ne.symm hne]

/-- Namespaces that have grown keep the right requirement, if any. -/
theorem Grown.kept (h : Grown inserted n) : n.Kept := by
  induction h with
  | empty => exact kept_forget .empty
  | insert _ name ih => exact ih.insert name
  | asked _ hc ih => exact (requirement_eq_ok ih hc).2.2

/-- The known namespaces are the names that were added, without slashes at their ends, but for blank
ones. -/
theorem Grown.mem_names (h : Grown inserted n) {ns : Text} :
    ns ∈ n.names ↔ ns ∈ inserted.map bare ∧ ns ≠ [] := by
  induction h with
  | empty => simp [names, Namespaces.empty, Dict.keys, Dict.empty]
  | insert _ name ih =>
    rw [mem_names_insert, ih, List.map_append, List.mem_append, List.map_singleton,
      List.mem_singleton, or_and_right]
  | asked h hc ih =>
    rw [names, (requirement_eq_ok h.kept hc).2.1]
    exact ih

/-- Namespaces with the same names know the same. -/
theorem known_ext (h : ∀ ns, ns ∈ n.names ↔ ns ∈ n'.names) : n.known = n'.known := by
  apply Dict.ext_get?
  intro ns
  have hns := h ns
  rw [names, names, Dict.mem_keys, Dict.mem_keys] at hns
  cases hget : n.known.get? ns <;> cases hget' : n'.known.get? ns <;> simp_all

/-- The controllers of namespaces, told of the names that were added. -/
theorem Grown.holds (h : Grown inserted n) (t : Text) :
    n.Holds t ↔ ∃ name, Slot.Fits controllerKey false name ∧ (t = name ∨
      ∃ added ∈ inserted, bare added ≠ [] ∧ t = bare added ++ '/' :: name) := by
  apply exists_congr
  intro name
  apply and_congr_right
  intro _
  apply or_congr_right
  constructor
  · rintro ⟨ns, hns, rfl⟩
    obtain ⟨hmem, hne⟩ := h.mem_names.1 hns
    obtain ⟨added, hadded, rfl⟩ := List.mem_map.1 hmem
    exact ⟨added, hadded, hne, rfl⟩
  · rintro ⟨added, hadded, hne, rfl⟩
    exact ⟨bare added, h.mem_names.2 ⟨List.mem_map_of_mem hadded, hne⟩, rfl⟩

/-- The requirement on controllers is compiled, unless the namespaces are very long together, and it
accepts the names and those that follow a namespace that was added and a slash. The order in which
they were added makes no difference. -/
theorem requirement_of_grown (h : Grown inserted n) :
    ((∃ c n', n.requirement = .ok (c, n') ∧ ∀ t, c.accepts t = true ↔
        ∃ name, Slot.Fits controllerKey false name ∧ (t = name ∨
          ∃ added ∈ inserted, bare added ≠ [] ∧ t = bare added ++ '/' :: name)) ∨
      n.requirement = .error (.expression .size) ∧ 30000 < n.extent) ∧
    ∀ other n', Grown other n' →
      (∀ ns ≠ [], ns ∈ inserted.map bare ↔ ns ∈ other.map bare) → n.source = n'.source := by
  constructor
  -- whatever is kept, the answer is that of compiling the source
  · have hanswer := h.kept.requirement_answer
    cases hrequirement : n.requirement with
    | error fault =>
      right
      rcases n.compile_source with ⟨c, hc⟩ | ⟨herror, hextent⟩
      · rw [hrequirement, hc] at hanswer
        cases hanswer
      · rw [hrequirement, herror] at hanswer
        cases hanswer
        exact ⟨rfl, hextent⟩
    | ok x =>
      left
      obtain ⟨c, n'⟩ := x
      obtain ⟨hc, -⟩ := requirement_eq_ok h.kept hrequirement
      exact ⟨c, n', rfl, fun t => (accepts_iff_holds hc t).trans (h.holds t)⟩
  · intro other n' hother hsame
    apply source_congr
    apply known_ext
    intro ns
    rw [h.mem_names, hother.mem_names]
    by_cases hns : ns = []
    · simp [hns]
    · rw [hsame ns hns]

/-- Namespaces read from a list have grown by its names. -/
theorem grown_ofList (names : List Text) : Grown names (.ofList names) := by
  have hfold : ∀ inserted n, Grown inserted n →
      Grown (inserted ++ names) (names.foldl (fun n name => (n.insert name).2) n) := by
    induction names with
    | nil =>
      intro inserted n h
      rwa [List.append_nil]
    | cons name names ih =>
      intro inserted n h
      have := ih _ _ (h.insert name)
      rwa [List.append_assoc] at this
  exact hfold [] .empty .empty

end

/-- Namespaces that look like expressions, one of them twice, and a blank one. -/
theorem requirement_of_grown_quoted :
    let names := ["/(?m)".toList, "^v1.0".toList, "(?m)/".toList, "//".toList]
    (∃ c n, (ofList names).requirement = .ok (c, n) ∧ c.accepts "(?m)/users".toList = true ∧
        c.accepts "^v1.0/users".toList = true ∧ c.accepts "users".toList = true ∧
        c.accepts "v1x0/users".toList = false) ∧
      (ofList names).source = (ofList names.reverse).source := by
  intro names
  have hfits : Slot.Fits controllerKey false "users".toList :=
    ⟨by decide, List.all_eq_true.1 (by decide)⟩
  obtain ⟨hrequirement, hsource⟩ := requirement_of_grown (grown_ofList names)
  refine ⟨?_, hsource _ _ (grown_ofList names.reverse) fun ns _ => ?_⟩
  · rcases hrequirement with ⟨c, n, hc, haccepts⟩ | ⟨-, hextent⟩
    · refine ⟨c, n, hc, ?_, ?_, ?_, ?_⟩
      · exact (haccepts _).2 ⟨_, hfits, .inr ⟨"/(?m)".toList, by decide, by decide, by decide⟩⟩
      · exact (haccepts _).2 ⟨_, hfits, .inr ⟨"^v1.0".toList, by decide, by decide, by decide⟩⟩
      · exact (haccepts _).2 ⟨_, hfits, .inl rfl⟩
      · rw [Bool.eq_false_iff, Ne, haccepts]
        -- the dot in the namespace stands for itself, so another character there fits no name
        rintro ⟨name, hname, rfl | ⟨added, hadded, -, heq⟩⟩
        · exact absurd (hname.2 '/' (by decide)) (by decide)
        · have hfirst : ∀ added ∈ names, (bare added ++ ['/']).head? ≠ some 'v' := by decide
          apply hfirst added hadded
          have hhead := congrArg List.head? heq
          rw [List.head?_append] at hhead ⊢
          exact hhead.symm
    · exact absurd hextent (by decide +kernel)
  · rw [List.map_reverse, List.mem_reverse]

end Namespaces

end Routing
