import Mathlib
import Routing.Proofs.Regex.Reduced
import Routing.Proofs.Template.Assembly
import Routing.Proofs.Template.Shape

/-!
# The size of a template's expression

The automata of a template's expression grow with its pattern: a character of a fixed text takes a
few states, and a parameter, which has a name of at least two characters with its mark, takes what
its set of characters does. So the expression of a pattern of ordinary length is never too large.

* `Expr.bound_ofParts`, `Expr.bound_ofBranches` — bounds on the size of sequences and choices
* `Slot.weight` — a bound on the size of slots
* `Template.weight_of_read` — the weight of a template, told of its pattern
* `Matcher.fits_templateExprs` — the expression of a template is not too large
-/

namespace Routing

open Regex

/-! ## Expressions -/

namespace Regex.Expr

variable {d : Direction}

/-- The size of an expression when the size of its sets is bounded. -/
def bound (d : Direction) (e : Expr) : Nat := e.cost d CharSet.sizeBound false

/-- A sequence is as large as its parts together, and one that is empty is a single state. -/
theorem bound_ofParts (es : List Expr) : (ofParts es).bound d ≤ 32 + (es.map (bound d)).sum := by
  by_cases hes : es = []
  · subst hes
    exact Nat.le_refl 32
  · rw [bound, cost_ofParts hes]
    exact Nat.le_add_left _ _

/-- A character takes at most four bytes. -/
theorem length_encodeCode (n : Nat) : (Utf8.encodeCode n).length ≤ 4 := by
  unfold Utf8.encodeCode
  repeat' split
  all_goals simp

/-- A set is as large as its bound, or as one character of four bytes. -/
theorem bound_set (s : CharSet) : (set s).bound d ≤ max 128 s.sizeBound := by
  rw [bound, cost]
  split
  · next n _ =>
    have := length_encodeCode n
    rw [Footprint.state]
    omega
  · exact Nat.le_max_right _ _

/-- A character that stands for itself takes at most four states. -/
theorem bound_single (c : Char) : (set (.single c)).bound d ≤ 128 := by
  have hcode : (set (.single c)).code? = some c.toNat := by
    simp [CharSet.single, CharSet.range, CharSet.codes, code?]
  have := length_encodeCode c.toNat
  rw [bound, cost, hcode, Footprint.state]
  show 32 * (Utf8.encodeCode c.toNat).length ≤ 128
  omega

/-- A text that stands for itself takes at most four states a character. -/
theorem bound_literal (t : Text) :
    ((t.map fun c => set (.single c)).map (bound d)).sum ≤ 128 * t.length := by
  induction t with
  | nil => exact Nat.le_refl 0
  | cons c t ih =>
    have := bound_single (d := d) c
    rw [List.map_cons, List.map_cons, List.sum_cons, List.length_cons]
    omega

/-- One branch that is no literal text keeps a choice from being one of literal texts. -/
theorem mapM_eq_none {es : List Expr} {e : Expr} (he : e ∈ es) (hbytes : e.bytes? = none) :
    es.mapM bytes? = none := by
  induction es with
  | nil => cases he
  | cons e' es ih =>
    rw [List.mapM_cons]
    rcases List.mem_cons.1 he with rfl | he
    · rw [hbytes]
      rfl
    · rw [ih he]
      cases e'.bytes? <;> rfl

/-- A choice, not all of whose branches are literal texts, is hardly larger than its branches
together. -/
theorem bound_ofBranches {es : List Expr} (h : ∀ e ∈ es, e.branches = [e]) {e : Expr} (he : e ∈ es)
    (hbytes : e.bytes? = none) :
    (ofBranches es).bound d ≤ 64 + (es.map fun e => e.bound d + 8).sum := by
  obtain ⟨e', es, rfl⟩ := List.exists_cons_of_ne_nil (List.ne_nil_of_mem he)
  obtain ⟨he', hes⟩ := List.forall_mem_cons.1 h
  rw [List.map_cons, List.sum_cons]
  -- one branch is no choice; otherwise the first one is followed by a choice of the others
  cases es with
  | nil =>
    rw [ofBranches]
    omega
  | cons e'' es =>
    have hrest : (ofBranches (e'' :: es)).cost d CharSet.sizeBound true ≤ _ :=
      cost_ofBranches hes (List.cons_ne_nil _ _)
    have hbranches := branches_ofBranches h (List.cons_ne_nil _ _)
    have halt : (alt e' (ofBranches (e'' :: es))).cost d CharSet.sizeBound false ≤ _ :=
      cost_alt (.inr ((congrArg (·.mapM bytes?) hbranches).trans (mapM_eq_none he hbytes)))
    rw [if_neg Bool.false_ne_true] at halt
    refine Nat.le_trans halt ?_
    rw [bound]
    simp only [bound] at hrest ⊢
    omega

end Regex.Expr

/-! ## Slots -/

namespace Slot

/-- A bound on the size of slots. -/
def weight : List Slot → Nat
  | [] => 0
  | text t :: rest => 128 * t.length + weight rest
  | capture _ _ :: rest => 1768 + weight rest

/-- The weight of slots put together is the sum of their weights. -/
theorem weight_append (a b : List Slot) : weight (a ++ b) = weight a + weight b := by
  induction a with
  | nil => exact (Nat.zero_add _).symm
  | cons s a ih => cases s <;> simp only [List.cons_append, weight, ih] <;> omega

/-- The three sets that the text of a parameter is made of are small. -/
theorem sizeBound_chars (name : Text) (glob : Bool) : (chars name glob).sizeBound ≤ 1664 := by
  unfold chars
  split
  · decide +kernel
  · split <;> decide +kernel

/-- The expressions of slots are not larger than the slots are heavy. -/
theorem bound_exprs (d : Direction) (n : Nat) (slots : List Slot) :
    ((exprs n slots).map (Expr.bound d)).sum ≤ weight slots := by
  induction slots generalizing n with
  | nil => exact Nat.le_refl 0
  | cons s slots ih =>
    cases s with
    | text t =>
      have htext := Expr.bound_literal (d := d) t
      rw [exprs, List.map_append, List.sum_append, weight]
      have := ih n
      omega
    | capture name glob =>
      have hset := Expr.bound_set (d := d) (chars name glob)
      have hsize := sizeBound_chars name glob
      have hgroup : d.groupSize ≤ 64 := by cases d <;> decide
      -- a group of a run: the two states that bind it, and the set with what repeats it
      have hcapture : (Expr.group (some (Matcher.groupName n))
          (.times 1 none true (.set (chars name glob)))).bound d =
            d.groupSize + (1 * (Expr.set (chars name glob)).bound d + 40) := rfl
      rw [exprs, List.map_cons, List.sum_cons, weight, hcapture]
      have := ih (n + 1)
      omega

/-- Levels that may be missing, one inside the other. -/
theorem bound_nested (d : Direction) (n : Nat) (levels : List (List Slot)) :
    ((nested n levels).map (Expr.bound d)).sum ≤
      (levels.map fun level => weight level + 104).sum := by
  induction levels generalizing n with
  | nil => exact Nat.le_refl 0
  | cons level levels ih =>
    have hbody := Expr.bound_ofParts (d := d)
      (exprs n level ++ nested (n + (captures level).length) levels)
    have hlevel := bound_exprs d n level
    have hrest := ih (n + (captures level).length)
    rw [List.map_append, List.sum_append] at hbody
    -- what may be missing takes a state for the decision
    have hoptional : (Expr.times 0 (some 1) true
        (.ofParts (exprs n level ++ nested (n + (captures level).length) levels))).bound d =
          40 + (Expr.ofParts
            (exprs n level ++ nested (n + (captures level).length) levels)).bound d + 32 := rfl
    rw [nested, List.map_singleton, List.sum_singleton, List.map_cons, List.sum_cons, hoptional]
    omega

end Slot

/-! ## Segments -/

/-- A bound on the size of a segment with what stands before and around it. -/
def Segment.weight (s : Segment) : Nat := Slot.weight s.slots + 232

namespace Matcher

/-- Leaving out the first slash makes no level heavier. -/
theorem weight_afterSlash (levels : List (List Slot)) :
    ((afterSlash levels).map fun level => Slot.weight level + 104).sum ≤
      (levels.map fun level => Slot.weight level + 104).sum := by
  match levels with
  | [] | [] :: _ => exact Nat.le_refl _
  | (s :: level) :: rest =>
    have hs : Slot.weight (.text [] :: level) ≤ Slot.weight (s :: level) := by
      cases s <;> simp [Slot.weight]
    rw [afterSlash, List.map_cons, List.map_cons, List.sum_cons, List.sum_cons]
    omega

/-- The required components are not heavier than their segments, but for the slash of an empty path.
-/
theorem weight_fixedSlots (required : List Segment) :
    Slot.weight (fixedSlots required) ≤ 128 + (required.map Segment.weight).sum := by
  have hall : Slot.weight (requiredSlots required) ≤ (required.map Segment.weight).sum := by
    rw [requiredSlots]
    induction required with
    | nil => exact Nat.le_refl 0
    | cons s required ih =>
      rw [List.flatMap_cons, Slot.weight_append, List.map_cons, List.sum_cons, Segment.weight,
        Slot.weight, List.length_singleton]
      omega
  rw [fixedSlots]
  split
  · exact Nat.le_add_right 128 _
  · omega

/-- The levels are not heavier than their segments. -/
theorem weight_levelSlots (required optional : List Segment) (format? : Option Text) :
    ((levelSlots required optional format?).map fun level => Slot.weight level + 104).sum ≤
      ((optional ++ format?.toList.map Segment.format).map Segment.weight).sum := by
  have hall : (((levels optional format?).map Level.slots).map
      fun level => Slot.weight level + 104).sum =
        ((optional ++ format?.toList.map Segment.format).map Segment.weight).sum := by
    rw [levels, List.map_append, List.map_append, List.map_append, List.sum_append, List.sum_append]
    congr 1
    · rw [List.map_map, List.map_map]
      congr 1
      refine List.map_congr_left fun s _ => ?_
      simp only [Function.comp_apply, Level.slots, Slot.weight, Segment.weight,
        List.length_singleton]
      omega
    · cases format? <;> rfl
  rw [levelSlots, ← hall]
  split
  · exact weight_afterSlash _
  · exact Nat.le_refl _

/-- The expression of a template that is not too heavy is not too large. -/
theorem fits_templateExprs {required optional : List Segment} {format? : Option Text}
    (h : ((required ++ optional ++ format?.toList.map Segment.format).map Segment.weight).sum + 352 ≤
      Expr.sizeLimit) : (Expr.ofParts (templateExprs required optional format?)).fits = true := by
  have hbound (d : Direction) : (Expr.ofParts (templateExprs required optional format?)).size d
      CharSet.sizeBound ≤ Expr.sizeLimit := by
    have hparts := Expr.bound_ofParts (d := d) (templateExprs required optional format?)
    have hfixed := Slot.bound_exprs d 0 (fixedSlots required)
    have hnested := Slot.bound_nested d (Slot.captures (fixedSlots required)).length
      (levelSlots required optional format?)
    have hweight := weight_fixedSlots required
    have hlevels := weight_levelSlots required optional format?
    have hgroup : d.groupSize ≤ 64 := by cases d <;> decide
    have hlook (l : Look) : (Expr.look l).bound d = 32 := rfl
    have hsize (e : Expr) : e.size d CharSet.sizeBound = 64 + d.groupSize + e.bound d := rfl
    rw [List.append_assoc, List.map_append, List.sum_append] at h
    -- two anchors, the fixed slots and the levels
    have hsum : ((templateExprs required optional format?).map (Expr.bound d)).sum =
        32 + ((Slot.exprs 0 (fixedSlots required)).map (Expr.bound d)).sum +
          ((Slot.nested (Slot.captures (fixedSlots required)).length
            (levelSlots required optional format?)).map (Expr.bound d)).sum + 32 := by
      rw [templateExprs, List.map_append, List.map_append, List.map_cons, List.map_singleton,
        List.sum_append, List.sum_append, List.sum_cons, List.sum_singleton, hlook, hlook]
    rw [hsize]
    omega
  rw [Expr.fits, List.all_eq_true]
  intro d _
  rw [Bool.or_eq_true, decide_eq_true_iff]
  exact .inl (hbound d)

end Matcher

/-! ## Patterns -/

namespace Component

/-- A fixed text weighs no more than its length allows. -/
theorem weight_literalPiece (s : Text) :
    Slot.weight ((literalPiece s).map Piece.slot) ≤ 884 * s.length := by
  rw [literalPiece]
  split
  · exact Nat.zero_le _
  · simp only [List.map_singleton, Piece.slot, Slot.weight]
    omega

/-- A capture takes two characters at least. -/
theorem weight_pieces {s : Text} {pieces : List Piece} (h : pieces? s = some pieces) :
    Slot.weight (pieces.map Piece.slot) ≤ 884 * s.length := by
  fun_induction pieces? s generalizing pieces with
  | case1 s hs =>
    cases h
    exact weight_literalPiece s
  | case2 s c after hs hid ih =>
    obtain ⟨rest, hrest, rfl⟩ := Option.map_eq_some_iff.1 h
    have hrest := ih hrest
    have hliteral := weight_literalPiece (s.takeWhile (· ≠ ':'))
    -- the mark and a character of the name at least
    have hname : 0 < (after.takeWhile isNameChar).length := by
      cases hn : after.takeWhile isNameChar with
      | nil => rw [hn] at hid; cases hid
      | cons => exact Nat.succ_pos _
    have hlen := congrArg List.length (List.takeWhile_append_dropWhile (p := (· ≠ ':')) (l := s))
    have hafter := congrArg List.length
      (List.takeWhile_append_dropWhile (p := isNameChar) (l := after))
    rw [List.length_append, hs, List.length_cons] at hlen
    rw [List.length_append] at hafter
    rw [List.map_append, Slot.weight_append, List.map_cons, Piece.slot, Slot.weight]
    omega
  | case3 => cases h

/-- A component weighs no more than its length allows: a parameter has its mark and a name. -/
theorem weight_classify {s : Text} {kind : ComponentKind} (h : classify s = .ok kind) :
    Slot.weight (kind.segment false).slots ≤ 884 * s.length := by
  have hname (c : Char) {name : Text} (hid : isIdentifier name = true) (glob : Bool) :
      Slot.weight [.capture name glob] ≤ 884 * (c :: name).length := by
    cases name with
    | nil => cases hid
    | cons d name =>
      simp only [Slot.weight, List.length_cons]
      omega
  cases classified h with
  | glob hid => exact hname '*' hid true
  | capture hid => exact hname ':' hid false
  | compound _ _ hpieces => exact weight_pieces hpieces
  | static =>
    simp only [ComponentKind.segment, Segment.slots, Slot.weight]
    omega

/-- A bound on the size of a component and its suffix. -/
def weight (c : Component) : Nat :=
  (c.kind.segment false).weight + if c.format then (Segment.format formatName).weight else 0

/-- A component and its suffix weigh no more than their length allows. -/
theorem weight_read {last : Bool} {s : Text} {c : Component} (h : read last s = .ok c) :
    c.weight ≤ 884 * (s.length + 1) := by
  obtain ⟨-, hkind, hsuffix, -⟩ := read_eq_ok h
  have hweight := weight_classify hkind
  have hlen := congrArg List.length (stripFormat_append s)
  have hformat : (Segment.format formatName).weight = 2000 := rfl
  have hlength : formatSuffix.length = 8 := rfl
  rw [List.length_append, ← hsuffix] at hlen
  rw [weight, hformat, Segment.weight]
  -- the eight characters of a suffix outweigh the format that it stands for
  cases hc : c.format with
  | false =>
    rw [hc, if_neg Bool.false_ne_true, List.length_nil] at hlen
    rw [if_neg Bool.false_ne_true]
    omega
  | true =>
    rw [hc, if_pos rfl, hlength] at hlen
    rw [if_pos rfl]
    omega

end Component

namespace Template

/-- Components weigh no more than the texts that they were read from, with a slash each. -/
theorem weight_readComponents {seen parts : List Text} {components : List Component}
    (h : readComponents seen parts = .ok components) :
    (components.map Component.weight).sum ≤ 884 * (parts.map fun part => part.length + 1).sum := by
  induction parts generalizing seen components with
  | nil => cases h; exact Nat.le_refl 0
  | cons s parts ih =>
    obtain ⟨c, rest, rfl, hc, -, hrest⟩ := readComponents_eq_ok h
    have hhead := Component.weight_read hc
    have htail := ih hrest
    rw [List.map_cons, List.map_cons, List.sum_cons, List.sum_cons]
    omega

/-- Arranging components changes nothing of their weight. -/
theorem weight_arrange (required : List Text) (defaults : Params) (components : List Component) :
    ((arrange required defaults components).segments.map Segment.weight).sum =
      (components.map Component.weight).sum := by
  induction components with
  | nil => rfl
  | cons c components ih =>
    obtain ⟨kind, format⟩ := c
    have hformat : ((if format then (arrange required defaults components).format
        else arrange required defaults components).segments.map Segment.weight).sum =
        (if format then (Segment.format Component.formatName).weight else 0) +
          (components.map Component.weight).sum := by
      cases format
      · exact ih.trans (Nat.zero_add _).symm
      · exact congrArg ((Segment.format Component.formatName).weight + ·) ih
    have hcons : ((arrange required defaults (⟨kind, format⟩ :: components)).segments.map
        Segment.weight).sum = (kind.segment false).weight +
          ((if format then (arrange required defaults components).format
            else arrange required defaults components).segments.map Segment.weight).sum := by
      cases kind with
      | static | glob | compound => rfl
      | capture name =>
        by_cases hreq : name ∈ required <;> simp [arrange, Tail.cons, hreq] <;> rfl
    rw [hcons, hformat, List.map_cons, List.sum_cons, Component.weight, Nat.add_assoc]

/-- The parts between the slashes are as long as the text, each counted with a slash. -/
theorem sum_length_splitOn (s : Text) :
    ((s.splitOn '/').map fun part => part.length + 1).sum = s.length + 1 := by
  induction s with
  | nil => rfl
  | cons c s ih =>
    rw [List.splitOn_cons_eq_if_modifyHead]
    split
    · rw [List.map_cons, List.sum_cons, ih, List.length_nil, List.length_cons]
      omega
    · cases hs : s.splitOn '/' with
      | nil => exact absurd hs (List.splitOn_ne_nil _ _)
      | cons part parts =>
        rw [hs, List.map_cons, List.sum_cons] at ih
        rw [List.modifyHead_cons, List.map_cons, List.sum_cons, List.length_cons, List.length_cons]
        omega

/-- The weight of a template is bounded by the length of its pattern. -/
theorem weight_of_read {pattern : Text} {defaults defaults' : Params} {required : List Text}
    {segments : List Segment} (h : read pattern defaults required = .ok (segments, defaults')) :
    (segments.map Segment.weight).sum ≤ 884 * (pattern.length + 1) := by
  obtain ⟨comps, hc, h⟩ := bind_eq_ok.1 h
  cases h
  have hparts : ((Path.components pattern).map fun part => part.length + 1).sum ≤
      pattern.length + 1 := by
    rw [← sum_length_splitOn]
    exact (List.filter_sublist.map _).sum_le_sum fun _ _ => Nat.zero_le _
  have hcomponents := weight_readComponents hc
  rw [weight_arrange]
  omega

end Template

end Routing
