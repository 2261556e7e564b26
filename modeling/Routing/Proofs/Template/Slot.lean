import Routing.Proofs.Regex.Spelling
import Routing.Route.Render

/-!
# Slots

A template is a row of **slots**, each a fixed text or a place for the text of a parameter. The
required ones come first and then, level by level, those that may be missing. The expression of a
row of slots is put together slot by slot, and what it matches is the row with texts filled in, each
of which fits its place.

* `Slot`, `Segment.slots`, `Level.slots` — the slots of a template
* `Slot.Fits` — the texts that a parameter can have
* `Slot.fill` — the text of a row of slots
* `chain_exprs` — what the expression of a row of slots matches
* `chain_nested` — the same for levels that may be missing
-/

namespace Routing

/-- A part of a path. -/
inductive Slot where
  /-- Text that stands for itself. -/
  | text (t : Text)
  /-- The text of a parameter. -/
  | capture (name : Text) (glob : Bool)

def Piece.slot : Piece → Slot
  | literal t => .text t
  | capture name => .capture name false

/-- The slots of a segment, without what stands before it. -/
def Segment.slots : Segment → List Slot
  | static t => [.text t]
  | capture name _ => [.capture name false]
  | glob name => [.capture name true]
  | compound pieces => pieces.map Piece.slot
  | format name => [.capture name false]

/-- A capture of several components is that of a glob. -/
theorem Segment.eq_glob_of_mem_slots {s : Segment} {name : Text}
    (h : Slot.capture name true ∈ s.slots) : s = .glob name := by
  cases s with
  | static | capture | format => simp [slots] at h
  | glob n =>
    simp only [slots, List.mem_singleton, Slot.capture.injEq, and_true] at h
    rw [h]
  | compound pieces =>
    rw [slots, List.mem_map] at h
    obtain ⟨p, -, hp⟩ := h
    cases p <;> cases hp

def Level.slots : Level → List Slot
  | component s => .text ['/'] :: s.slots
  | format name => [.text ['.'], .capture name false]

/-- The characters of a name, told by their ranges. -/
theorem isNameChar_iff (c : Char) : isNameChar c = true ↔
    c = '_' ∨ 'a' ≤ c ∧ c ≤ 'z' ∨ 'A' ≤ c ∧ c ≤ 'Z' ∨ '0' ≤ c ∧ c ≤ '9' := by
  have h : isNameChar c = (decide ('A'.val ≤ c.val ∧ c.val ≤ 'Z'.val) ||
      (decide ('a'.val ≤ c.val) && decide (c.val ≤ 'z'.val)) ||
      (decide ('0'.val ≤ c.val) && decide (c.val ≤ '9'.val)) || decide (c = '_')) := rfl
  rw [h]
  simp only [Bool.or_eq_true, Bool.and_eq_true, decide_eq_true_eq, Char.le_def]
  grind

namespace Slot

open Regex

/-- The captures among slots, and whether they are globs. -/
def captures : List Slot → List (Text × Bool)
  | [] => []
  | text _ :: rest => captures rest
  | capture name glob :: rest => (name, glob) :: captures rest

/-- The parameters captured, in order. -/
def names (slots : List Slot) : List Text := (captures slots).map Prod.fst

/-! ## Texts for parameters -/

/-- Whether a character can stand in the text of a parameter. -/
def allows (name : Text) (glob : Bool) (c : Char) : Bool :=
  if name = controllerKey then isNameChar c
  else if glob then c ≠ '\n'
  else c ≠ '/' && c ≠ '.'

/-- Whether the text can stand for the parameter. -/
def Fits (name : Text) (glob : Bool) (t : Text) : Prop :=
  t ≠ [] ∧ ∀ c ∈ t, allows name glob c = true

/-- The texts fit the captures in order. -/
def FitAll (slots : List Slot) (texts : List Text) : Prop :=
  List.Forall₂ (fun c t => Fits c.1 c.2 t) (captures slots) texts

/-- The slots with texts filled in for the captures. -/
def fill : List Slot → List Text → Text
  | [], _ => []
  | text t :: rest, texts => t ++ fill rest texts
  | capture _ _ :: rest, t :: texts => t ++ fill rest texts
  | capture _ _ :: rest, [] => fill rest []

theorem captures_append (a b : List Slot) : captures (a ++ b) = captures a ++ captures b := by
  induction a with
  | nil => rfl
  | cons s a ih => cases s <;> simp [captures, ih]

theorem names_append (a b : List Slot) : names (a ++ b) = names a ++ names b := by
  rw [names, captures_append, List.map_append]
  rfl

/-! ## Expressions -/

/-- The characters that can stand in the text of a parameter. -/
def chars (name : Text) (glob : Bool) : CharSet :=
  if name = controllerKey then
    .unions [.single '_', .range 'a' 'z', .range 'A' 'Z', .range '0' '9']
  else if glob then .compl (.single '\n')
  else .compl (.unions [.single '/', .single '.'])

/-- The set of a parameter holds the characters that it allows. -/
theorem mem_chars (name : Text) (glob : Bool) (c : Char) :
    (chars name glob).mem c = allows name glob c := by
  unfold chars allows
  split
  · rw [Bool.eq_iff_iff, isNameChar_iff]
    simp only [CharSet.unions, List.foldl_cons, List.foldl_nil, CharSet.mem_union,
      CharSet.mem_empty, CharSet.mem_single, CharSet.mem_range, Bool.or_eq_true,
      decide_eq_true_eq, Bool.false_or]
    grind
  · split
    · simp [CharSet.mem_single]
    · simp [CharSet.unions, CharSet.mem_single]

/-- The expressions of slots; `n` is the number of the first group. -/
def exprs (n : Nat) : List Slot → List Expr
  | [] => []
  | text t :: rest => (t.map fun c => .set (.single c)) ++ exprs n rest
  | capture name glob :: rest =>
    .group (some (Matcher.groupName n)) (.times 1 none true (.set (chars name glob))) ::
      exprs (n + 1) rest

/-- The expression of levels that may be missing, each inside the one before it. -/
def nested (n : Nat) : List (List Slot) → List Expr
  | [] => []
  | level :: rest =>
    [.times 0 (some 1) true
      (.ofParts (exprs n level ++ nested (n + (captures level).length) rest))]

/-- What groups are bound to, the latest first; `n` is the number of the first group. -/
def bound (n : Nat) : List Text → Groups
  | [] => []
  | t :: texts => bound (n + 1) texts ++ [(Matcher.groupName n, t)]

/-! ## What the expressions match -/

/-- The groups of later slots are numbered behind those of earlier ones. -/
theorem exprs_append (n : Nat) (a b : List Slot) :
    exprs n (a ++ b) = exprs n a ++ exprs (n + (captures a).length) b := by
  induction a generalizing n with
  | nil => rfl
  | cons s a ih =>
    cases s with
    | text t => rw [List.cons_append, exprs, ih, exprs, captures, List.append_assoc]
    | capture name glob =>
      rw [List.cons_append, exprs, ih, exprs, captures, List.length_cons, List.cons_append,
        Nat.add_assoc, Nat.add_comm 1]

/-- A fixed text matches itself and binds nothing. -/
theorem chain_literal (t : Text) {l w r : Text} {g : Groups} :
    Expr.Chain (t.map fun c => .set (.single c)) l w r g ↔ w = t ∧ g = [] := by
  induction t generalizing l w g with
  | nil => exact Iff.rfl
  | cons c t ih =>
    rw [List.map_cons, Expr.chain_cons]
    constructor
    · rintro ⟨_, t₂, _, g₂, rfl, rfl, ⟨d, rfl, hd, rfl⟩, h⟩
      obtain ⟨rfl, rfl⟩ := ih.1 h
      rw [CharSet.mem_single, decide_eq_true_iff] at hd
      exact ⟨by rw [hd]; rfl, rfl⟩
    · rintro ⟨rfl, rfl⟩
      refine ⟨[c], t, [], [], rfl, rfl, ⟨c, rfl, ?_, rfl⟩, ih.2 ⟨rfl, rfl⟩⟩
      rw [CharSet.mem_single, decide_eq_true_iff]

/-- The group of a capture matches the texts that fit it, and is bound to what it matches. -/
theorem matches_capture {n : Nat} {name : Text} {glob : Bool} {l w r : Text} {g : Groups} :
    (Expr.group (some (Matcher.groupName n)) (.times 1 none true (.set (chars name glob)))).Matches
      l w r g ↔ Fits name glob w ∧ g = [(Matcher.groupName n, w)] := by
  constructor
  · rintro ⟨h, hw, rfl⟩
    -- a run of characters of the set binds nothing itself
    obtain ⟨hne, hall, rfl⟩ := (Expr.matches_run _).1 hw
    exact ⟨⟨hne, fun c hc => mem_chars name glob c ▸ hall c hc⟩, rfl⟩
  · rintro ⟨⟨hne, hall⟩, rfl⟩
    exact ⟨[], (Expr.matches_run _).2 ⟨hne, fun c hc => (mem_chars name glob c).trans (hall c hc), rfl⟩,
      rfl⟩

/-- The expressions of slots match the slots with fitting texts filled in. -/
theorem chain_exprs {n : Nat} {slots : List Slot} {l w r : Text} {g : Groups} :
    Expr.Chain (exprs n slots) l w r g ↔
      ∃ texts, FitAll slots texts ∧ w = fill slots texts ∧ g = bound n texts := by
  induction slots generalizing n l w g with
  | nil =>
    constructor
    · rintro ⟨rfl, rfl⟩
      exact ⟨[], .nil, rfl, rfl⟩
    · rintro ⟨_, ⟨⟩, rfl, rfl⟩
      exact ⟨rfl, rfl⟩
  | cons s slots ih =>
    cases s with
    | text t =>
      rw [exprs, Expr.chain_append]
      constructor
      · rintro ⟨t₁, t₂, g₁, g₂, rfl, rfl, h₁, h₂⟩
        obtain ⟨rfl, rfl⟩ := (chain_literal t).1 h₁
        obtain ⟨texts, hfit, rfl, rfl⟩ := ih.1 h₂
        exact ⟨texts, hfit, rfl, List.append_nil _⟩
      · rintro ⟨texts, hfit, rfl, rfl⟩
        exact ⟨t, _, [], _, rfl, (List.append_nil _).symm, (chain_literal t).2 ⟨rfl, rfl⟩,
          ih.2 ⟨texts, hfit, rfl, rfl⟩⟩
    | capture name glob =>
      rw [exprs, Expr.chain_cons]
      constructor
      · rintro ⟨t₁, t₂, g₁, g₂, rfl, rfl, h₁, h₂⟩
        obtain ⟨hfit, rfl⟩ := matches_capture.1 h₁
        obtain ⟨texts, hfits, rfl, rfl⟩ := ih.1 h₂
        exact ⟨t₁ :: texts, .cons hfit hfits, rfl, rfl⟩
      · rintro ⟨_, hfits, rfl, rfl⟩
        cases hfits with
        | cons hfit hfits =>
          exact ⟨_, _, _, _, rfl, rfl, matches_capture.2 ⟨hfit, rfl⟩, ih.2 ⟨_, hfits, rfl, rfl⟩⟩

/-- The expression of nested levels matches some of the levels from the outermost in. -/
theorem chain_nested {n : Nat} {levels : List (List Slot)} {l w r : Text} {g : Groups} :
    Expr.Chain (nested n levels) l w r g ↔
      ∃ m ≤ levels.length, Expr.Chain (exprs n (levels.take m).flatten) l w r g := by
  induction levels generalizing n l w g with
  | nil =>
    constructor
    · exact fun h => ⟨0, Nat.le_refl 0, h⟩
    · rintro ⟨m, -, h⟩
      simpa [nested, exprs] using h
  | cons level levels ih =>
    rw [nested, Expr.chain_cons, Expr.chain_nil, Lang.seq_nil, Expr.Matches, Lang.times_zero_one,
      Expr.matches_ofParts, Expr.chain_append]
    constructor
    -- no level at all, or the outermost one with some of those inside it
    · rintro (h | ⟨t₁, t₂, g₁, g₂, rfl, rfl, h₁, h₂⟩)
      · exact ⟨0, Nat.zero_le _, h⟩
      · obtain ⟨m, hm, h₂⟩ := ih.1 h₂
        refine ⟨m + 1, Nat.succ_le_succ hm, ?_⟩
        rw [List.take_succ_cons, List.flatten_cons, exprs_append, Expr.chain_append]
        exact ⟨t₁, t₂, g₁, g₂, rfl, rfl, h₁, h₂⟩
    · rintro ⟨m, hm, h⟩
      cases m with
      | zero => exact .inl h
      | succ m =>
        rw [List.take_succ_cons, List.flatten_cons, exprs_append, Expr.chain_append] at h
        obtain ⟨t₁, t₂, g₁, g₂, rfl, rfl, h₁, h₂⟩ := h
        exact .inr ⟨t₁, t₂, g₁, g₂, rfl, rfl, h₁, ih.2 ⟨m, Nat.le_of_succ_le_succ hm, h₂⟩⟩

end Slot

end Routing
