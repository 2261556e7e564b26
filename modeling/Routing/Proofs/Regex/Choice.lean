import Routing.Proofs.Regex.Language

/-!
# The language of a choice

A choice is kept reduced: branches that are sets become one set, and a beginning that all branches
share is taken out of them. Neither changes what it matches, which is what some branch matches.

* `Lang.any` — what one of several languages matches
* `Expr.join_shared?` — a shared beginning, put before what each branch goes on with, gives back the
  branch
* `Expr.matches_choice` — the language of a choice
-/

namespace Routing.Regex

namespace Lang

/-- What one of some languages matches. -/
def any (Ms : List Lang) : Lang := fun l t r g => ∃ M ∈ Ms, M l t r g

theorem any_nil : any [] = fun _ _ _ _ => False := by
  funext l t r g
  simp [any]

theorem any_cons (M : Lang) (Ms : List Lang) : any (M :: Ms) = M.or (any Ms) := by
  funext l t r g
  simp [any, or]

theorem any_singleton (M : Lang) : any [M] = M := by
  funext l t r g
  simp [any]

theorem any_append (Ms Ns : List Lang) : any (Ms ++ Ns) = (any Ms).or (any Ns) := by
  funext l t r g
  simp [any, or, or_and_right, exists_or]

/-- What stands before a choice stands before each branch. -/
theorem seq_any (M : Lang) (Ns : List Lang) : M.seq (any Ns) = any (Ns.map M.seq) := by
  funext l t r g
  apply propext
  constructor
  · intro ⟨t₁, t₂, g₁, g₂, ht, hg, hM, N, hN, h⟩
    exact ⟨M.seq N, List.mem_map_of_mem hN, t₁, t₂, g₁, g₂, ht, hg, hM, h⟩
  · intro ⟨_, hmem, h⟩
    obtain ⟨N, hN, rfl⟩ := List.mem_map.1 hmem
    obtain ⟨t₁, t₂, g₁, g₂, ht, hg, hM, h⟩ := h
    exact ⟨t₁, t₂, g₁, g₂, ht, hg, hM, N, hN, h⟩

end Lang

namespace CharSet

/-- The sets are added one by one to the one begun with. -/
theorem mem_foldl_union {sets : List CharSet} {s : CharSet} {c : Char} :
    (sets.foldl union s).mem c = true ↔ s.mem c = true ∨ ∃ t ∈ sets, t.mem c = true := by
  induction sets generalizing s with
  | nil => simp
  | cons t sets ih =>
    rw [List.foldl_cons, ih, mem_union, Bool.or_eq_true]
    simp [or_assoc]

theorem mem_unions {sets : List CharSet} {c : Char} :
    (unions sets).mem c = true ↔ ∃ s ∈ sets, s.mem c = true := by
  rw [unions, mem_foldl_union, mem_empty]
  simp

end CharSet

namespace Expr

/-! ## Branches -/

/-- What one of some expressions matches. -/
def Any (es : List Expr) : Lang := .any (es.map Matches)

/-- Taking a choice apart keeps its language. -/
theorem any_branches (e : Expr) : Any e.branches = e.Matches := by
  induction e with
  | alt a b iha ihb =>
    rw [branches, Any, List.map_append, Lang.any_append, ← Any, ← Any, iha, ihb]
    rfl
  | empty | set | look | seq | times | group => exact Lang.any_singleton _

/-- Choices among the branches of a choice can be taken apart too. -/
theorem any_flatMap_branches (es : List Expr) : Any (es.flatMap branches) = Any es := by
  induction es with
  | nil => rfl
  | cons e es ih =>
    rw [List.flatMap_cons, Any, List.map_append, Lang.any_append, ← Any, ← Any, ih, any_branches]
    exact (Lang.any_cons ..).symm

/-- Putting branches together as a choice keeps their language. -/
theorem matches_ofBranches (es : List Expr) : (ofBranches es).Matches = Any es := by
  induction es with
  | nil =>
    rw [ofBranches, Any, List.map_nil, Lang.any_nil]
    funext l t r g
    simp [Matches]
  | cons e es ih =>
    cases es with
    | nil => exact (Lang.any_singleton _).symm
    | cons f fs =>
      show e.Matches.or (ofBranches (f :: fs)).Matches = _
      rw [ih]
      exact (Lang.any_cons ..).symm

theorem eq_set_of_set? {e : Expr} {s : CharSet} (h : e.set? = some s) : e = set s := by
  cases e with
  | set s' => rw [Option.some.inj h]
  | _ => cases h

/-- A list of sets is given by its sets. -/
theorem eq_map_set {es : List Expr} {sets : List CharSet} (h : es.mapM set? = some sets) :
    es = sets.map set := by
  induction es generalizing sets with
  | nil =>
    cases h
    rfl
  | cons e es ih =>
    rw [List.mapM_cons] at h
    obtain ⟨s, hs, h⟩ := Option.bind_eq_some_iff.1 h
    obtain ⟨sets', hsets, h⟩ := Option.bind_eq_some_iff.1 h
    cases h
    rw [eq_set_of_set? hs, ih hsets]
    rfl

/-- One set in place of several. -/
theorem matches_unions {es : List Expr} {sets : List CharSet} (h : es.mapM set? = some sets) :
    (set (CharSet.unions sets)).Matches = Any es := by
  have hes := eq_map_set h
  subst hes
  funext l t r g
  apply propext
  constructor
  · intro ⟨c, ht, hc, hg⟩
    obtain ⟨s, hs, hc⟩ := CharSet.mem_unions.1 hc
    exact ⟨(set s).Matches, List.mem_map_of_mem (List.mem_map_of_mem hs), c, ht, hc, hg⟩
  · intro ⟨_, hmem, h⟩
    obtain ⟨e, he, rfl⟩ := List.mem_map.1 hmem
    obtain ⟨s, hs, rfl⟩ := List.mem_map.1 he
    obtain ⟨c, ht, hc, hg⟩ := h
    exact ⟨c, ht, CharSet.mem_unions.2 ⟨s, hs, hc⟩, hg⟩

/-! ## Shared beginnings -/

/-- Blocks one after the other are the parts that they were made of. -/
theorem flatten_blocks (es : List Expr) : (blocks es).flatten = es := by
  induction es with
  | nil => rfl
  | cons e es ih =>
    rw [blocks]
    -- a literal joins the block after it, or begins one
    split
    · next hblocks =>
      rw [hblocks] at ih
      split
      · rw [List.flatten_cons, List.cons_append, ← List.flatten_cons, ih]
      · rw [List.flatten_cons, ih]
        rfl
    · rw [List.flatten_cons, ih]
      rfl

/-- What two branches share at the beginning begins both. -/
theorem sharedStart_isPrefix (as bs : List (List Expr)) :
    sharedStart as bs <+: as ∧ sharedStart as bs <+: bs := by
  induction as generalizing bs with
  | nil => simp [sharedStart]
  | cons a as ih =>
    cases bs with
    | nil => simp [sharedStart]
    | cons b bs =>
      rw [sharedStart]
      split
      · next h =>
        rw [← h.1, List.prefix_cons_inj, List.prefix_cons_inj]
        exact ih bs
      · exact ⟨List.nil_prefix, List.nil_prefix⟩

/-- What all branches share begins each of them. -/
theorem foldl_sharedStart_isPrefix (first : List (List Expr)) (rest : List (List (List Expr))) :
    ∀ bs ∈ first :: rest, rest.foldl sharedStart first <+: bs := by
  induction rest generalizing first with
  | nil =>
    intro bs hbs
    rw [List.mem_singleton.1 hbs]
    exact List.prefix_rfl
  | cons as rest ih =>
    -- the fold goes on with a beginning of both, so what it ends with begins both
    obtain ⟨hfirst, has⟩ := sharedStart_isPrefix first as
    have hrest := ih (sharedStart first as)
    intro bs hbs
    rw [List.foldl_cons]
    rcases List.mem_cons.1 hbs with rfl | hbs
    · exact (hrest _ List.mem_cons_self).trans hfirst
    · rcases List.mem_cons.1 hbs with rfl | hbs
      · exact (hrest _ List.mem_cons_self).trans has
      · exact hrest bs (List.mem_cons_of_mem _ hbs)

/-- Put before what the branches go on with, their shared beginning gives back each of them. -/
theorem join_shared? {bs start ends : List Expr} (h : shared? bs = some (start, ends)) :
    ends.map (fun e => (Chain start).seq e.Matches) = bs.map Matches := by
  unfold shared? at h
  split at h
  · cases h
  · next first rest hblocks =>
    split at h
    · cases h
    · split at h
      · cases h
      · next hstart =>
        cases h
        rw [← hblocks, List.map_map, List.map_map]
        apply List.map_congr_left
        intro b hb
        -- the shared beginning is cut off each branch, and put back gives its blocks
        have hprefix := foldl_sharedStart_isPrefix first rest (blocks b.parts)
          (hblocks ▸ List.mem_map_of_mem hb)
        obtain ⟨tail, htail⟩ := hprefix
        rw [Function.comp_apply, Function.comp_apply, matches_ofParts, ← chain_append, ← htail,
          List.drop_left, ← List.flatten_append, htail, flatten_blocks, chain_parts]

/-! ## Choices -/

/-- A choice matches what one of its branches matches. -/
theorem matches_choiceOf (fuel : Nat) (es : List Expr) : (choiceOf fuel es).Matches = Any es := by
  induction fuel generalizing es with
  | zero => exact matches_ofBranches es
  | succ fuel ih =>
    rw [choiceOf, ← any_flatMap_branches es]
    -- the cases are those of the definition: no branch, one, sets only, a shared beginning, others
    generalize es.flatMap branches = bs
    split
    · exact matches_ofBranches []
    · exact (Lang.any_singleton _).symm
    · split
      · next hsets => exact matches_unions hsets
      · split
        · next start ends hshared =>
          -- what the branches go on with is a choice with less fuel
          rw [matches_concat, chain_append, chain_cons, chain_nil, Lang.seq_nil, ih, Any,
            Lang.seq_any, List.map_map]
          exact congrArg Lang.any (join_shared? hshared)
        · exact matches_ofBranches _

theorem matches_choice (es : List Expr) : (choice es).Matches = Any es :=
  matches_choiceOf _ es

end Expr

end Routing.Regex
