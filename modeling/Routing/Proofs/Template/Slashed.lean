import Routing.Proofs.Regex.Continuation
import Routing.Proofs.Regex.Yielding
import Routing.Proofs.Template.Assembly

/-!
# Components that may be missing

At the end of a template stand captures that a path may lack, each behind a slash and inside the one
before it. At the end of a path they match any components without dots, up to their number, and in
one way only.

* `Slot.slashed` — the slots of such captures
* `Slot.yields_slashed` — the expression of their text
* `Slot.can_slashed`, `Slot.prefers_slashed` — what it matches at the end of a path
-/

namespace Routing.Slot

open Regex

/-- The slots of captures, each behind a slash. -/
def slashed (names : List Text) : List (List Slot) :=
  names.map fun name => [.text ['/'], .capture name false]

/-- A component of a path that has no dot. -/
def Dotless (part : Text) : Prop := part ≠ [] ∧ '/' ∉ part ∧ '.' ∉ part

variable [Properties]
variable {requirements : Dict Requirement} {name : Text} {names parts : List Text} {n : Nat}

omit [Properties] in
/-- The expression of captures behind slashes, one inside the other. -/
theorem nested_slashed (n : Nat) (name : Text) (names : List Text) :
    nested n (slashed (name :: names)) =
      [.times 0 (some 1) true (.ofParts (.set (.single '/') ::
        .group (some (Matcher.groupName n)) (.times 1 none true (.set (chars name false))) ::
          nested (n + 1) (slashed names)))] := rfl

/-! ## The expression -/

/-- What the text of captures yields that have no requirement. -/
theorem yields_slashed
    (h : ∀ name ∈ names, requirements.get? name = none ∧ name ≠ controllerKey) (n : Nat) :
    Yields (nestedSource requirements n (slashed names)) (nested n (slashed names))
      (Matcher.groupNames n names.length) := by
  induction names generalizing n with
  | nil => exact .of_spells .nil
  | cons name names ih =>
    obtain ⟨⟨hrequirement, hname⟩, hnames⟩ := List.forall_mem_cons.1 h
    have hchars : chars name false = .compl (.unions [.single '/', .single '.']) := by
      rw [chars, if_neg hname]
      rfl
    have hgrammar : grammarOf requirements Matcher.componentGrammar name =
        Matcher.componentGrammar := by
      rw [grammarOf, hrequirement]
      rfl
    have hgroup := (Yields.of_spells spells_component).named (Matcher.isGroupName_groupName n)
      (Matcher.gt_not_mem_groupName n)
    have hslash : Yields ['/'] [.set (.single '/')] [] := .of_spells (.char rfl)
    have hinner : (nestedSource requirements (n + 1) (slashed names)).head? ≠ some '?' :=
      head?_nestedSource (n + 1) (slashed names)
    have hlevel := ((hslash.append hgroup (by simp)).append (ih hnames (n + 1)) hinner).optional
      (e := .set (.single '/')) List.mem_cons_self (by decide)
    rw [nested_slashed, hchars, List.length_cons, Nat.add_comm names.length,
      Matcher.groupNames_add]
    have htext : nestedSource requirements n (slashed (name :: names)) =
        "(?:".toList ++ (['/'] ++ ("(?P<".toList ++ Matcher.groupName n ++ ['>'] ++
          Matcher.componentGrammar ++ [')']) ++
            nestedSource requirements (n + 1) (slashed names)) ++ ")?".toList := by
      show "(?:".toList ++ (source requirements n [.text ['/'], .capture name false] ++
        nestedSource requirements (n + 1) (slashed names)) ++ ")?".toList = _
      rw [source, source, source, groupSource, if_neg Bool.false_ne_true, hgrammar]
      simp [quote, isMeta]
    rw [htext]
    exact hlevel

/-! ## What it matches -/

omit [Properties] in
theorem mem_chars_of_ne (hname : name ≠ controllerKey) {c : Char} :
    (chars name false).mem c = true ↔ c ≠ '/' ∧ c ≠ '.' := by
  rw [mem_chars, allows, if_neg hname]
  simp

omit [Properties] in
/-- The texts that fit such a parameter are components without dots. -/
theorem dotless_iff (hname : name ≠ controllerKey) {part : Text} :
    part ≠ [] ∧ (∀ c ∈ part, (chars name false).mem c = true) ↔ Dotless part := by
  simp only [mem_chars_of_ne hname]
  refine and_congr_right fun _ => ⟨fun h => ?_, fun h c hc => ?_⟩
  · exact ⟨fun hc => (h _ hc).1 rfl, fun hc => (h _ hc).2 rfl⟩
  · refine ⟨?_, ?_⟩
    · rintro rfl
      exact h.1 hc
    · rintro rfl
      exact h.2 hc

/-- The end of a path. -/
abbrev AtEnd : Text → Text → Prop := fun _ r => r = []

omit [Properties] in
/-- At the end of a path, captures match as many components as they are, or fewer. -/
theorem can_slashed (hnames : ∀ name ∈ names, name ≠ controllerKey) {l s : Text} :
    Expr.Can (.ofParts (nested n (slashed names))) AtEnd l s ↔
      ∃ parts : List Text, parts.length ≤ names.length ∧ (∀ part ∈ parts, Dotless part) ∧
        s = parts.flatMap ('/' :: ·) := by
  induction names generalizing n l s with
  | nil =>
    rw [slashed, List.map_nil, nested, Expr.ofParts, Expr.can_empty]
    constructor
    · rintro rfl
      exact ⟨[], Nat.le_refl 0, by simp, rfl⟩
    · rintro ⟨parts, hlen, -, rfl⟩
      rw [List.length_eq_zero_iff.1 (Nat.le_zero.1 hlen)]
      rfl
  | cons name names ih =>
    obtain ⟨hname, hnames⟩ := List.forall_mem_cons.1 hnames
    rw [nested_slashed, Expr.ofParts, Expr.can_optional, Expr.can_ofParts_cons, Expr.can_set,
      Expr.can_ofParts_cons]
    simp only [Expr.can_group, Expr.can_run, ih hnames, CharSet.mem_single, decide_eq_true_eq]
    constructor
    · rintro (⟨_, _, rfl, rfl, part, _, rfl, hne, hall, parts, hlen, hparts, rfl⟩ | rfl)
      · refine ⟨part :: parts, Nat.succ_le_succ hlen, ?_, rfl⟩
        exact List.forall_mem_cons.2 ⟨(dotless_iff hname).1 ⟨hne, hall⟩, hparts⟩
      · exact ⟨[], Nat.zero_le _, by simp, rfl⟩
    · rintro ⟨parts, hlen, hparts, rfl⟩
      -- no component at all, or the first one and some of the others
      cases parts with
      | nil => exact .inr rfl
      | cons part parts =>
        obtain ⟨hpart, hparts⟩ := List.forall_mem_cons.1 hparts
        obtain ⟨hne, hall⟩ := (dotless_iff hname).2 hpart
        exact .inl ⟨_, _, rfl, rfl, part, _, rfl, hne, hall, parts, Nat.le_of_succ_le_succ hlen,
          hparts, rfl⟩

omit [Properties] in
/-- The components at the end of a path are bound to the captures in order. -/
theorem prefers_slashed (hnames : ∀ name ∈ names, name ≠ controllerKey)
    (hlen : parts.length ≤ names.length) (hparts : ∀ part ∈ parts, Dotless part) {l : Text} :
    (Expr.ofParts (nested n (slashed names))).Prefers AtEnd l (parts.flatMap ('/' :: ·)) []
      (bound n parts) := by
  induction names generalizing n l parts with
  | nil =>
    rw [List.length_eq_zero_iff.1 (Nat.le_zero.1 hlen)]
    exact .empty rfl
  | cons name names ih =>
    obtain ⟨hname, hnames⟩ := List.forall_mem_cons.1 hnames
    rw [nested_slashed, Expr.ofParts]
    cases parts with
    | nil =>
      -- nothing is left of the path, so there is no slash to begin with
      refine .absent ?_ rfl
      rw [Expr.can_ofParts_cons, Expr.can_set]
      rintro ⟨_, _, ⟨⟩, -⟩
    | cons part parts =>
      obtain ⟨hpart, hparts⟩ := List.forall_mem_cons.1 hparts
      obtain ⟨hne, hall⟩ := (dotless_iff hname).2 hpart
      have hrest := ih (n := n + 1) (l := l ++ ['/'] ++ part) hnames
        (Nat.le_of_succ_le_succ hlen) hparts
      -- the component ends before the next slash, or with the path
      have hnext : ∀ c ∈ (parts.flatMap ('/' :: ·)).head?, (chars name false).mem c = false := by
        intro c hc
        cases parts with
        | nil => cases hc
        | cons =>
          cases hc
          exact Bool.eq_false_iff.2 fun h => ((mem_chars_of_ne hname).1 h).1 rfl
      have hrun : (Expr.times 1 none true (.set (chars name false))).Prefers
          (Expr.Can (.ofParts (nested (n + 1) (slashed names))) AtEnd) (l ++ ['/']) part
          (parts.flatMap ('/' :: ·) ++ []) [] :=
        Expr.prefers_run hne hall (by rwa [List.append_nil]) hrest.can
      have hgroup : (Expr.group (some (Matcher.groupName n))
          (.times 1 none true (.set (chars name false)))).Prefers _ _ part _
            [(Matcher.groupName n, part)] := .named hrun
      have hcomponent := hgroup.cons hrest
      have hslash : (CharSet.single '/').mem '/' = true := by simp [CharSet.mem_single]
      have hlevel := Expr.Prefers.cons (t := ['/']) (.set hslash hcomponent.can) hcomponent
      rw [List.append_nil] at hlevel
      exact .present hlevel

end Routing.Slot
