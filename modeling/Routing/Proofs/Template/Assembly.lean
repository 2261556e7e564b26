import Routing.Namespaces
import Routing.Proofs.Template.Source

/-!
# The expression of a template without requirements

Without requirements each capture holds a run of characters. The text of a row of slots spells the
expressions of the slots, and the levels that may be missing nest to the end.

* `Slot.spells_source` — what the text of slots spells
* `Slot.spells_level`, `Slot.spells_nested` — how deep levels nest
* `Matcher.spells_ofSegments` — what the whole text spells
-/

namespace Routing

open Regex

/-! ## Names of groups -/

namespace Matcher

/-- Groups of different numbers have different names. -/
theorem groupName_inj {m n : Nat} (h : groupName m = groupName n) : m = n := by
  have hdigits := congrArg (Nat.ofDigitChars 10 · 0) (List.append_cancel_left h)
  -- the digits tell the number
  rwa [Text.ofNat, Text.ofNat, Nat.ofDigitChars_ten_toDigits, Nat.ofDigitChars_ten_toDigits]
    at hdigits

/-- The names of groups are made of these characters. -/
theorem mem_groupName {n : Nat} {c : Char} (h : c ∈ groupName n) :
    c ∈ "_segment0123456789".toList := by
  have hprefix : "__segment_".toList.all ("_segment0123456789".toList.contains ·) = true := by
    decide
  have hdigits : ∀ i < 10, Char.ofNat (48 + i) ∈ "_segment0123456789".toList := by decide
  rcases List.mem_append.1 h with h | h
  · exact List.contains_iff_mem.1 (List.all_eq_true.1 hprefix c h)
  · obtain ⟨hlo, hhi⟩ := Char.isDigit_iff_toNat.1
      (Nat.isDigit_of_mem_toDigits (by decide) (Nat.le_refl 10) h)
    change 48 ≤ c.toNat at hlo
    change c.toNat ≤ 57 at hhi
    have hc := hdigits (c.toNat - 48) (by omega)
    rwa [show 48 + (c.toNat - 48) = c.toNat by omega, Char.ofNat_toNat] at hc

/-- The reader takes the names of groups for names. -/
theorem isGroupName_groupName (n : Nat) : Reader.isGroupName (groupName n) = true := by
  have hchars : "_segment0123456789".toList.all (Reader.isNameChar false) = true := by
    decide +kernel
  have hfirst : Reader.isNameChar true '_' = true := rfl
  show (Reader.isNameChar true '_' &&
    ("_segment_".toList ++ Text.ofNat n).all (Reader.isNameChar false)) = true
  rw [hfirst, Bool.true_and, List.all_eq_true]
  intro c hc
  exact List.all_eq_true.1 hchars c (mem_groupName (n := n) (List.mem_cons_of_mem '_' hc))

/-- The name of a group does not end before its end. -/
theorem gt_not_mem_groupName (n : Nat) : '>' ∉ groupName n :=
  fun h => absurd (mem_groupName h) (by decide)

/-- The names of `k` groups; `n` is the number of the first. -/
def groupNames (n k : Nat) : List Text := (List.range' n k).map groupName

theorem nodup_groupNames (n k : Nat) : (groupNames n k).Nodup :=
  List.Pairwise.map _ (fun _ _ hne heq => hne (groupName_inj heq)) List.nodup_range'

theorem groupNames_add (n j k : Nat) :
    groupNames n (j + k) = groupNames n j ++ groupNames (n + j) k := by
  rw [groupNames, ← List.range'_append_1, List.map_append]
  rfl

end Matcher

/-! ## Grammars of captures -/

variable [Properties]

/-- The only requirement is that of a bare controller name. -/
def Bare (requirements : Dict Requirement) : Prop :=
  ∀ key, (requirements.get? key).map Requirement.fragment =
    if key = controllerKey then
      some (Requirement.fragmentOf Namespaces.controllerName false false)
    else none

namespace Slot

/-- A set that is repeated means a run of its characters. -/
theorem means_run {item : Syntax} {s : CharSet} (h : item.Means (.set s)) :
    (Syntax.times 1 none true item).Means (.times 1 none true (.set s)) := by
  have hrep : Expr.repeated 1 none true (.set s) = .times 1 none true (.set s) := by
    by_cases hs : s = .empty <;> simp [Expr.repeated, Expr.greatest, hs]
  rw [Syntax.Means, Syntax.meaning, h]
  exact congrArg (fun e => Except.ok (e, _)) hrep

/-- A class that is repeated spells a run of its characters. -/
theorem spells_class {grammar w : Text} {negated : Bool} {items : List ClassSyntax} {s : CharSet}
    (hgrammar : grammar = '[' :: w ++ ['+'])
    (hclass : ∀ rest, Reader.charClass false (w ++ rest) =
      .ok (.bracket negated (.union items), rest))
    (hmeans : (Syntax.bracket negated (.union items)).Means (.set s)) :
    Spells grammar [.times 1 none true (.set s)] [] ((ClassSyntax.union items).depth + 2) := by
  have hwritten : Written ('[' :: w ++ ['+'])
      [.times 1 none true (.bracket negated (.union items))] [] := by
    refine Written.plus rfl fun st hx rest => ?_
    simp only [Reader.step, hx, hclass]
    rfl
  have := Spells.of_item hwritten (means_run hmeans) rfl
  rw [hgrammar]
  simpa [Syntax.depth] using this

/-- The grammar of a whole component or a part of one. -/
theorem spells_component :
    Spells Matcher.componentGrammar
      [.times 1 none true (.set (.compl (.unions [.single '/', .single '.'])))] [] 3 := by
  have hclass (rest : Text) : Reader.charClass false ("^/.]".toList ++ rest) =
      .ok (.bracket true (.union [.char '/', .char '.']), rest) := by
    -- the class is read from its head on, and then member by member
    have hhead : Reader.classHead false ("^/.]".toList ++ rest) =
        (⟨true, [], none⟩, "/.]".toList ++ rest) := by
      simp [Reader.classHead, Reader.classCaret, Reader.gap, Reader.leadingHyphens,
        Reader.spaced]
    rw [Reader.charClass, hhead]
    refine (Reader.classRest_push (.char '/') (".]".toList ++ rest) rfl (by decide)).trans ?_
    refine (Reader.classRest_push (.char '.') ("]".toList ++ rest) rfl (by decide)).trans ?_
    exact Reader.classRest_close _ rest
  have hmeans : (Syntax.bracket true (.union [.char '/', .char '.'])).Means
      (.set (.compl (.unions [.single '/', .single '.']))) := by
    simp [Syntax.Means, Syntax.meaning, ClassSyntax.meaning, ClassSyntax.meanings, Flags.negate,
      Flags.fold, bind, Except.bind, pure, Except.pure]
  have := spells_class (rfl : Matcher.componentGrammar = _) hclass hmeans
  simpa [ClassSyntax.depth, ClassSyntax.depths] using this

/-- The grammar of a glob. -/
theorem spells_glob :
    Spells Matcher.globGrammar [.times 1 none true (.set (.compl (.single '\n')))] [] 1 := by
  have hwritten : Written Matcher.globGrammar [.times 1 none true .dot] [] :=
    Written.plus (c := '.') (w := []) rfl fun _ _ _ => rfl
  have := Spells.of_item hwritten (means_run (s := .compl (.single '\n')) ?_) rfl
  · simpa [Syntax.depth] using this
  · simp [Syntax.Means, Syntax.meaning, dotMeaning, bind, Except.bind, pure, Except.pure]

/-- The grammar of a bare controller name. -/
theorem spells_controllerName :
    Spells Namespaces.controllerName
      [.times 1 none true
        (.set (.unions [.single '_', .range 'a' 'z', .range 'A' 'Z', .range '0' '9']))] [] 3 := by
  have hclass (rest : Text) : Reader.charClass false ("_a-zA-Z0-9]".toList ++ rest) =
      .ok (.bracket false (.union [.char '_', .range 'a' 'z', .range 'A' 'Z', .range '0' '9']),
        rest) := by
    have hhead : Reader.classHead false ("_a-zA-Z0-9]".toList ++ rest) =
        (⟨false, [], none⟩, "_a-zA-Z0-9]".toList ++ rest) := by
      simp [Reader.classHead, Reader.classCaret, Reader.gap, Reader.leadingHyphens,
        Reader.spaced]
    rw [Reader.charClass, hhead]
    refine (Reader.classRest_push (.char '_') ("a-zA-Z0-9]".toList ++ rest) rfl
      (by decide)).trans ?_
    refine (Reader.classRest_push (.range 'a' 'z') ("A-Z0-9]".toList ++ rest) rfl
      (by decide)).trans ?_
    refine (Reader.classRest_push (.range 'A' 'Z') ("0-9]".toList ++ rest) rfl
      (by decide)).trans ?_
    refine (Reader.classRest_push (.range '0' '9') ("]".toList ++ rest) rfl (by decide)).trans ?_
    exact Reader.classRest_close _ rest
  -- the members are put together to one set
  have hmeans : (Syntax.bracket false
      (.union [.char '_', .range 'a' 'z', .range 'A' 'Z', .range '0' '9'])).Means
        (.set (.unions [.single '_', .range 'a' 'z', .range 'A' 'Z', .range '0' '9'])) := by
    simp [Syntax.Means, Syntax.meaning, ClassSyntax.meaning, ClassSyntax.meanings, Flags.negate,
      Flags.fold, bind, Except.bind, pure, Except.pure]
  have := spells_class (rfl : Namespaces.controllerName = _) hclass hmeans
  simpa [ClassSyntax.depth, ClassSyntax.depths] using this

/-- The requirement that a controller is a bare name. -/
theorem spells_controller :
    Spells (Requirement.fragmentOf Namespaces.controllerName false false)
      [.times 1 none true
        (.set (.unions [.single '_', .range 'a' 'z', .range 'A' 'Z', .range '0' '9']))] [] 4 :=
  spells_controllerName.grouped

/-- What the group of a capture holds spells a run of the characters that the parameter allows. -/
theorem spells_grammar {requirements : Dict Requirement} (h : Bare requirements) (key : Text)
    (glob : Bool) :
    ∃ depth ≤ 4, (glob = false → 3 ≤ depth) ∧
      Spells (grammarOf requirements
        (if glob then Matcher.globGrammar else Matcher.componentGrammar) key)
        [.times 1 none true (.set (chars key glob))] [] depth := by
  rw [grammarOf, h key, chars]
  by_cases hkey : key = controllerKey
  · rw [if_pos hkey, if_pos hkey]
    exact ⟨4, Nat.le_refl _, fun _ => by decide, spells_controller⟩
  · rw [if_neg hkey, if_neg hkey]
    cases glob
    · exact ⟨3, by decide, fun _ => Nat.le_refl _, spells_component⟩
    · exact ⟨1, by decide, by simp, spells_glob⟩

/-! ## What the text of slots spells -/

variable {requirements : Dict Requirement} {n depth : Nat} {rest : List (List Slot)}

/-- The group of a capture. -/
theorem spells_capture (h : Bare requirements) (n : Nat) (key : Text) (glob : Bool) :
    ∃ depth ≤ 5, (glob = false → 4 ≤ depth) ∧
      Spells (source requirements n [.capture key glob]) (exprs n [.capture key glob])
        (Matcher.groupNames n 1) depth := by
  obtain ⟨depth, hle, hpos, hspells⟩ := spells_grammar h key glob
  have hnamed := hspells.named (Matcher.isGroupName_groupName n) (Matcher.gt_not_mem_groupName n)
  refine ⟨depth + 1, by omega, fun hglob => Nat.succ_le_succ (hpos hglob), ?_⟩
  simp only [List.append_assoc] at hnamed
  rw [source, source, List.append_nil]
  exact hnamed

/-- The text of slots spells their expressions, at most five levels deep. -/
theorem spells_source (h : Bare requirements) (n : Nat) (slots : List Slot) :
    ∃ depth ≤ 5, Spells (source requirements n slots) (exprs n slots)
      (Matcher.groupNames n (captures slots).length) depth := by
  induction slots generalizing n with
  | nil => exact ⟨0, by decide, .nil⟩
  | cons s slots ih =>
    cases s with
    | text t =>
      obtain ⟨depth, hle, hspells⟩ := ih n
      exact ⟨_, by omega, (Spells.quoted t).append hspells (head?_source n slots)⟩
    | capture key glob =>
      obtain ⟨depth, hle, -, hcapture⟩ := spells_capture h n key glob
      obtain ⟨depth', hle', hspells⟩ := ih (n + 1)
      refine ⟨max depth depth', by omega, ?_⟩
      rw [← List.singleton_append, source_append, exprs_append, captures_append, List.length_append,
        Matcher.groupNames_add]
      exact hcapture.append hspells (head?_source (n + 1) slots)

/-! ### Levels that may be missing -/

/-- The bounds on how deep `count` levels nest. -/
def NestDepth (count depth : Nat) : Prop :=
  depth ≤ 3 * count + 5 ∧ (count = 0 ∨ 3 * count + 4 ≤ depth)

/-- A level around others: a separator and a capture. Only without a separator and without others
is it no sequence. -/
theorem spells_level (h : Bare requirements) (n : Nat) (sep name : Text)
    (hrest : Spells (nestedSource requirements (n + 1) rest) (nested (n + 1) rest)
      (Matcher.groupNames (n + 1) (captures rest.flatten).length) depth)
    (hdepth : NestDepth rest.length depth) :
    ∃ depth', depth' ≤ 3 * (rest.length + 1) + 5 ∧
      ((sep = [] ∧ rest = []) ∨ 3 * (rest.length + 1) + 4 ≤ depth') ∧
      Spells (nestedSource requirements n ([.text sep, .capture name false] :: rest))
        (nested n ([.text sep, .capture name false] :: rest))
        (Matcher.groupNames n ((captures rest.flatten).length + 1)) depth' := by
  obtain ⟨dcap, hle, hge, hcap⟩ := spells_capture h n name false
  have hge := hge rfl
  have hinner := ((Spells.quoted sep).append hcap (head?_source n _)).append hrest
    (head?_nestedSource (n + 1) rest)
  -- a level takes text, so leaving it out is not the same as matching it
  have hset : (Expr.group (some (Matcher.groupName n)) (.times 1 none true
      (.set (chars name false)))).greatest ≠ some 0 := by
    simp [Expr.greatest]
  have hlevel := hinner.optional (by simp [exprs]) hset
  rw [List.nil_append, ← Matcher.groupNames_add, Nat.add_comm 1] at hlevel
  obtain ⟨hup, hlow⟩ := hdepth
  have hnested : (nested (n + 1) rest).length = if rest = [] then 0 else 1 := by
    cases rest <;> rfl
  refine ⟨_, ?_, ?_, hlevel⟩
  · simp only [Syntax.seqDepth]
    split <;> omega
  · cases rest with
    | nil =>
      cases sep with
      | nil => exact .inl ⟨rfl, rfl⟩
      | cons c sep =>
        right
        simp [Syntax.seqDepth, exprs, nested] at *
        omega
    | cons r rest =>
      right
      simp [Syntax.seqDepth, exprs, nested] at *
      omega

/-- Levels that all begin with a separator. -/
theorem spells_nested (h : Bare requirements) (n : Nat) {levels : List (List Slot)}
    (hlevels : ∀ level ∈ levels, ∃ sep name, sep ≠ [] ∧ level = [.text sep, .capture name false]) :
    ∃ depth, NestDepth levels.length depth ∧
      Spells (nestedSource requirements n levels) (nested n levels)
        (Matcher.groupNames n (captures levels.flatten).length) depth := by
  induction levels generalizing n with
  | nil => exact ⟨0, ⟨by decide, .inl rfl⟩, .nil⟩
  | cons level levels ih =>
    obtain ⟨⟨sep, name, hsep, rfl⟩, hrest⟩ := List.forall_mem_cons.1 hlevels
    obtain ⟨depth, hdepth, hspells⟩ := ih (n + 1) hrest
    obtain ⟨depth', hle, hge, hlevel⟩ := spells_level h n sep name hspells hdepth
    exact ⟨depth', ⟨hle, .inr (hge.resolve_left fun heq => hsep heq.1)⟩, hlevel⟩

end Slot

namespace Matcher

variable {requirements : Dict Requirement}

/-- The expressions of a template. -/
def templateExprs (required optional : List Segment) (format? : Option Text) : List Expr :=
  .look .start :: Slot.exprs 0 (fixedSlots required) ++
    Slot.nested (Slot.captures (fixedSlots required)).length
      (levelSlots required optional format?) ++ [.look .stop]

/-- The levels of a template, the first of which may begin without its slash. -/
theorem spells_levelSlots (h : Bare requirements) (n : Nat) (required : List Segment)
    {optional : List Segment} (hopt : ∀ s ∈ optional, ∃ name, s = .capture name true)
    (format? : Option Text) :
    ∃ depth, depth ≤ 3 * (levels optional format?).length + 5 ∧
      ((levels optional format?).length ≤ 1 ∨
        3 * (levels optional format?).length + 4 ≤ depth) ∧
      Spells (Slot.nestedSource requirements n (levelSlots required optional format?))
        (Slot.nested n (levelSlots required optional format?))
        (groupNames n (Slot.captures (levelSlots required optional format?).flatten).length)
        depth := by
  have hslots : ∀ level ∈ (levels optional format?).map Level.slots,
      ∃ sep name, sep ≠ [] ∧ level = [.text sep, .capture name false] := by
    intro level hlevel
    obtain ⟨l, hl, rfl⟩ := List.mem_map.1 hlevel
    rcases List.mem_append.1 hl with hl | hl
    · obtain ⟨s, hs, rfl⟩ := List.mem_map.1 hl
      obtain ⟨name, rfl⟩ := hopt s hs
      exact ⟨['/'], name, by simp, rfl⟩
    · obtain ⟨name, -, rfl⟩ := List.mem_map.1 hl
      exact ⟨['.'], name, by simp, rfl⟩
  rw [levelSlots, ← List.length_map (f := Level.slots)]
  generalize (levels optional format?).map Level.slots = all at hslots ⊢
  -- with no required component the first level has no slash before it
  split
  · cases all with
    | nil => exact ⟨0, by decide, .inl (by decide), .nil⟩
    | cons level all =>
      obtain ⟨⟨sep, name, -, rfl⟩, hall⟩ := List.forall_mem_cons.1 hslots
      obtain ⟨depth, hdepth, hspells⟩ := Slot.spells_nested h (n + 1) hall
      obtain ⟨depth', hle, hge, hlevel⟩ := Slot.spells_level h n [] name hspells hdepth
      refine ⟨depth', hle, hge.imp_left fun heq => ?_, hlevel⟩
      rw [heq.2]
      exact Nat.le_refl 1
  · obtain ⟨depth, ⟨hle, hge⟩, hspells⟩ := Slot.spells_nested h n hslots
    exact ⟨depth, hle, hge.imp_left fun heq => by omega, hspells⟩

/-- What the text of a template's expression spells. Its groups capture the parameters of the
template in order, and each optional level nests three deeper. -/
theorem spells_ofSegments (h : Bare requirements) {segments required optional : List Segment}
    {format? : Option Text} (hsplit : splitFormat segments = (required ++ optional, format?))
    (hreq : ∀ s ∈ required, s.isOptional = false)
    (hopt : ∀ s ∈ optional, ∃ name, s = .capture name true)
    (hformat : format? ≠ none → required ++ optional ≠ []) :
    ∃ depth, ((levels optional format?).length ≤ 1 ∨
        3 * (levels optional format?).length + 4 ≤ depth) ∧
      depth ≤ 3 * (levels optional format?).length + 5 ∧
      (ofSegments requirements segments).keys =
        segmentNames required ++ (segmentNames optional ++ format?.toList) ∧
      Spells (ofSegments requirements segments).source (templateExprs required optional format?)
        (groupNames 0 (ofSegments requirements segments).keys.length) depth := by
  have hkeys : (ofSegments requirements segments).keys = _ :=
    ofSegments_keys hsplit hreq hopt hformat
  obtain ⟨d₁, hd₁, hfixed⟩ := Slot.spells_source h 0 (fixedSlots required)
  obtain ⟨d₂, hle, hge, hlevels⟩ := spells_levelSlots h
    (Slot.captures (fixedSlots required)).length required hopt format?
  have hslots := hfixed.append hlevels (Slot.head?_nestedSource _ _)
  have hanchored := (Spells.lineStart.append hslots
    (Slot.head?_source_append 0 _ (Slot.head?_nestedSource _ _))).append .lineEnd (by decide)
  have hcount : (ofSegments requirements segments).keys.length =
      (Slot.captures (fixedSlots required)).length +
        (Slot.captures (levelSlots required optional format?).flatten).length := by
    rw [hkeys, ← names_fixedSlots, ← names_levelSlots required, List.length_append, Slot.names,
      Slot.names, List.length_map, List.length_map]
  refine ⟨max d₁ d₂, hge.imp_right fun h => by omega, by omega, hkeys, ?_⟩
  rw [ofSegments_source hsplit hreq hopt hformat, hcount, groupNames_add, Nat.zero_add]
  simpa [templateExprs] using hanchored

end Matcher

end Routing
