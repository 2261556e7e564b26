import Routing.Proofs.Requirement
import Routing.Proofs.Route.Bare

/-!
# Texts that are admitted

A capture without a requirement has a grammar, which is written twice: as a test of characters,
which a value must pass before it is put into a path, and as the expression that its group holds
when paths are matched. For a capture of a component the two agree. A glob passes the test with any
text that is not empty, while its group holds no line feed.

* `Matcher.alone` — the expression of one capture for whole texts
* `Matcher.exists_alone` — what it is compiled to
* `Rendering.admits_iff_alone` — the two grammars of a capture
-/

namespace Routing

open Regex

namespace Matcher

variable [Properties]

/-- The expression of a single capture for whole texts. The parameters `keys` are captured by groups
before it, from which its own group has the number. -/
def alone (requirements : Dict Requirement) (keys : List Text) (name : Text) (glob : Bool) : Text :=
  (((⟨['^'], keys⟩ : Matcher).capture requirements
    (if glob then globGrammar else componentGrammar) name).text ['$']).source

/-- The characters of the grammar of a capture. -/
def grammarSet (glob : Bool) : CharSet :=
  if glob then .compl (.single '\n') else .compl (.unions [.single '/', .single '.'])

/-- The grammar of a capture spells a run of its set. -/
theorem spells_grammarSet (glob : Bool) :
    Spells (if glob then globGrammar else componentGrammar)
      [.times 1 none true (.set (grammarSet glob))] [] (if glob then 1 else 3) := by
  cases glob with
  | false => exact Slot.spells_component
  | true => exact Slot.spells_glob

omit [Properties] in
/-- What a capture without a requirement admits: anything but a line feed for a glob, and neither
separator otherwise. -/
theorem mem_grammarSet (glob : Bool) (c : Char) : (grammarSet glob).mem c = true ↔
    if glob then c ≠ '\n' else c ≠ '/' ∧ c ≠ '.' := by
  cases glob <;> simp [grammarSet, CharSet.unions, CharSet.mem_single]

/-- The group of a capture between anchors. -/
def aloneExprs (n : Nat) (glob : Bool) : List Expr :=
  .look .start :: [.group (some (groupName n)) (.times 1 none true (.set (grammarSet glob)))] ++
    [.look .stop]

variable {requirements : Dict Requirement} {keys : List Text} {name : Text} {glob : Bool}

theorem alone_eq (h : requirements.get? name = none) :
    alone requirements keys name glob = ['^'] ++ ("(?P<".toList ++ groupName keys.length ++ ['>'] ++
      (if glob then globGrammar else componentGrammar) ++ [')']) ++ ['$'] := by
  simp [alone, capture, text, h]

omit [Properties] in
/-- The size of the expression does not depend on how its group is numbered. -/
theorem fits_aloneExprs (n : Nat) (glob : Bool) : (Expr.ofParts (aloneExprs n glob)).fits = true := by
  have hnumber : (Expr.ofParts (aloneExprs n glob)).fits =
      (Expr.ofParts (aloneExprs 0 glob)).fits := rfl
  rw [hnumber]
  cases glob <;> decide +kernel

/-- What the expression is compiled to. -/
theorem exists_alone (keys : List Text) (glob : Bool) (h : requirements.get? name = none) :
    ∃ e, Regex.compile (alone requirements keys name glob) = .ok e ∧
      e.expr = .ofParts (aloneExprs keys.length glob) := by
  have hnamed := (spells_grammarSet glob).named (isGroupName_groupName keys.length)
    (gt_not_mem_groupName keys.length)
  have hspells := (Spells.lineStart.append hnamed (by simp)).append .lineEnd (by decide)
  rw [← alone_eq h] at hspells
  -- few nodes and little depth, so that neither limit is met
  have hparse : Regex.parse (alone requirements keys name glob) =
      .ok (.ofParts (aloneExprs keys.length glob)) := by
    rw [hspells.parse (by simp), if_pos, if_pos]
    · rfl
    · exact fits_aloneExprs keys.length glob
    · cases glob <;> simp [seqDepth, Syntax.seqDepth, Syntax.depthLimit]
  refine ⟨⟨_, _, hparse⟩, ?_, rfl⟩
  unfold Regex.compile
  split
  · next e he => cases he.symm.trans hparse; rfl
  · next f hf => cases hf.symm.trans hparse

omit [Properties] in
/-- A group around a run matches a text as a whole and binds it. -/
theorem chain_alone {n : Nat} {t : Text} {g : Groups} :
    Expr.Chain [.group (some (groupName n)) (.times 1 none true (.set (grammarSet glob)))]
      [] t [] g ↔ (t ≠ [] ∧ ∀ c ∈ t, (grammarSet glob).mem c = true) ∧ g = [(groupName n, t)] := by
  rw [Expr.chain_cons, Expr.chain_nil, Lang.seq_nil]
  constructor
  · rintro ⟨_, hrun, rfl⟩
    obtain ⟨hne, hall, rfl⟩ := (Expr.matches_run _).1 hrun
    exact ⟨⟨hne, hall⟩, rfl⟩
  · rintro ⟨⟨hne, hall⟩, rfl⟩
    exact ⟨[], (Expr.matches_run _).2 ⟨hne, hall, rfl⟩, rfl⟩

end Matcher

namespace Rendering

section

variable [Properties] {x : Rendering} {name raw : Text} {glob : Bool}

/-- The test of a capture without a requirement, next to the characters of its grammar. -/
theorem admits_iff_grammarSet (h : x.route.requirements.get? name = none) :
    (raw ≠ [] ∧ ∀ c ∈ raw, (Matcher.grammarSet glob).mem c = true) ↔
      x.admits name raw glob = true ∧ (glob = true → '\n' ∉ raw) := by
  simp only [admits, h, Matcher.mem_grammarSet]
  cases glob with
  | false => simp
  | true =>
    simp only [if_true, Bool.true_or, Bool.and_true, true_implies, Bool.not_eq_true',
      List.isEmpty_eq_false_iff]
    refine and_congr_right fun _ => ⟨fun hall hmem => hall _ hmem rfl, ?_⟩
    rintro hnot c hc rfl
    exact hnot hc

/-- Where a capture has no requirement, its expression matches a text as a whole exactly when a
value with this text would be admitted into a path, but for a glob with a line feed, which is
admitted and not matched. Its group is bound to the whole text. -/
theorem admits_iff_alone (x : Rendering) (keys : List Text) (name raw : Text) (glob : Bool)
    (h : x.route.requirements.get? name = none) :
    ∃ e, Regex.compile (Matcher.alone x.route.requirements keys name glob) = .ok e ∧
      (e.isMatch raw = true ↔
        x.admits name raw glob = true ∧ (glob = true → '\n' ∉ raw)) ∧
      (e.isMatch raw = true →
        e.match? raw = some [(Matcher.groupName keys.length, raw)]) := by
  obtain ⟨e, he, hexpr⟩ := Matcher.exists_alone keys glob h
  -- anchored at both ends, a search finds the whole text or nothing
  have hchain : e.expr.Matches = Expr.Chain (Matcher.aloneExprs keys.length glob) := by
    rw [hexpr, Expr.matches_ofParts]
  have hmatch : e.isMatch raw = true ↔
      x.admits name raw glob = true ∧ (glob = true → '\n' ∉ raw) := by
    rw [Regex.isMatch, isSome_find_anchored hchain, ← admits_iff_grammarSet h]
    simp only [Matcher.chain_alone, exists_and_left, exists_eq, and_true]
  refine ⟨e, he, hmatch, fun hsome => ?_⟩
  obtain ⟨g, hg⟩ := Option.isSome_iff_exists.1 hsome
  rw [Regex.match?, hg, (Matcher.chain_alone.1 (matches_of_find_anchored hchain hg)).2]

end

/-- Documents whose path is captured as a whole. -/
def documentsDeclaration : Declaration :=
  { Declaration.blank with
    path := "documents/*path".toList
    defaults := .ofList [(controllerKey, .str "documents".toList)] }

/-- Slashes and dots pass both ways in a glob. A line feed passes only into a path. -/
theorem admits_iff_alone_documents :
    ∃ r e, Route.bare? documentsDeclaration = some r ∧
      r.requirements.get? "path".toList = none ∧
      Regex.compile (Matcher.alone r.requirements [] "path".toList true) = .ok e ∧
      e.match? "a/b.c".toList = some [(Matcher.groupName 0, "a/b.c".toList)] ∧
      admits ⟨r, .empty⟩ "path".toList "a\nb".toList true = true ∧
      e.isMatch "a\nb".toList = false := by
  have hsome : (Route.bare? documentsDeclaration).isSome = true := by decide +kernel
  obtain ⟨r, hr⟩ := Option.isSome_iff_exists.1 hsome
  have hnone : r.requirements.get? "path".toList = none := by
    have hd : documentsDeclaration.requirements = .empty := rfl
    have hsettled := Route.settled_of_compiledBare (Route.compiledBare_of_bare? hd hr)
    have hfragment := hsettled.bare "path".toList
    rwa [if_neg (by decide), Option.map_eq_none_iff] at hfragment
  have hadmits (raw : Text) (hraw : raw ≠ []) :
      admits ⟨r, .empty⟩ "path".toList raw true = true := by
    unfold admits
    rw [hnone]
    simpa using hraw
  obtain ⟨e, he, hmatch, hbound⟩ :=
    admits_iff_alone ⟨r, .empty⟩ [] "path".toList "a/b.c".toList true hnone
  obtain ⟨e', he', hmatch', -⟩ :=
    admits_iff_alone ⟨r, .empty⟩ [] "path".toList "a\nb".toList true hnone
  cases he.symm.trans he'
  refine ⟨r, e, hr, hnone, he, hbound (hmatch.2 ⟨hadmits _ (by decide), fun _ => by decide⟩),
    hadmits _ (by decide), ?_⟩
  rw [Bool.eq_false_iff, ne_eq, hmatch']
  exact fun h => h.2 rfl (by decide)

end Rendering

end Routing
