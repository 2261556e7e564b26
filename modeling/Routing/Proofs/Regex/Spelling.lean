import Mathlib.Data.List.Forall2
import Routing.Proofs.Regex.Language
import Routing.Proofs.Regex.Reading
import Routing.Proofs.Steps

/-!
# Texts that spell expressions

A text that can be put together with others spells a sequence of expressions. What is put together
of such texts spells what is put together of the expressions, and the whole is parsed as that unless
it nests too deep or is too large.

* `Spells` — a text spells a sequence of expressions
* `Spells.append`, `Spells.named`, `Spells.optional` — putting such texts together
* `Spells.parse` — what such a text is parsed as
-/

namespace Routing.Regex

/-! ## Sequences -/

namespace Expr

/-- An expression that is one part of a sequence. -/
def IsPart (e : Expr) : Prop := e.parts = [e]

theorem isPart_set (s : CharSet) : (set s).IsPart := rfl

/-- A sequence of parts is put together without taking any of them apart. -/
theorem concat_of_parts {es : List Expr} (h : ∀ e ∈ es, e.IsPart) : concat es = ofParts es := by
  have hparts : es.flatMap parts = es := by
    induction es with
    | nil => rfl
    | cons e es ih =>
      obtain ⟨he, hes⟩ := List.forall_mem_cons.1 h
      rw [List.flatMap_cons, ih hes, he]
      rfl
  rw [concat, hparts]

/-- A sequence takes text when one of its parts does. -/
theorem greatest_ofParts_ne_zero {e : Expr} {es : List Expr} (he : e ∈ es)
    (hg : e.greatest ≠ some 0) : (ofParts es).greatest ≠ some 0 := by
  induction es with
  | nil => simp at he
  | cons f fs ih =>
    cases fs with
    | nil => rwa [ofParts, ← List.mem_singleton.1 he]
    | cons f' fs =>
      show (do return (← f.greatest) + (← (ofParts (f' :: fs)).greatest)) ≠ some 0
      cases hf : f.greatest with
      | none => simp
      | some n =>
        cases hfs : (ofParts (f' :: fs)).greatest with
        | none => simp
        | some m =>
          -- a sequence takes no text only if neither its first part nor the rest does
          intro h
          have hzero : n = 0 ∧ m = 0 := by simpa using h
          rcases List.mem_cons.1 he with rfl | he
          · exact hg (by rw [hf, hzero.1])
          · exact ih he (by rw [hfs, hzero.2])

end Expr

/-! ## Meanings -/

variable [Properties]

namespace Syntax

/-- The part means the expression and leaves the flags as they are. -/
def Means (item : Syntax) (e : Expr) : Prop := item.meaning {} = .ok (e, {})

/-- Items that mean expressions and leave the flags alone mean them one after the other. -/
theorem meanings_of_means {items : List Syntax} {es : List Expr}
    (h : List.Forall₂ Means items es) : Syntax.meanings {} items = .ok (es, {}) := by
  induction h with
  | nil => rw [Syntax.meanings]
  | cons h _ ih =>
    rw [Syntax.meanings, h, bind_eq_ok]
    exact ⟨_, rfl, bind_eq_ok.2 ⟨_, ih, rfl⟩⟩

/-- A sequence of such items means the sequence of their expressions. -/
theorem means_ofItems {items : List Syntax} {es : List Expr} (h : List.Forall₂ Means items es)
    (hparts : ∀ e ∈ es, e.IsPart) : (ofItems items).Means (.ofParts es) := by
  have hall := meanings_of_means h
  cases h with
  | nil => exact Syntax.meaning.eq_1 _
  | cons h hs =>
    cases hs with
    | nil => exact h
    | cons =>
      rw [ofItems, Means, Syntax.meaning, hall]
      · exact congrArg (fun e => Except.ok (e, _)) (Expr.concat_of_parts hparts)
      all_goals simp

/-- How deep a sequence nests whose parts nest `depth` deep. -/
def seqDepth (length depth : Nat) : Nat :=
  if length ≤ 1 then depth else depth + 1

omit [Properties] in
/-- Two items nest one level deeper than the deepest of them, one item as deep as it does. -/
theorem depth_ofItems (items : List Syntax) :
    (ofItems items).depth = seqDepth items.length (Syntax.depths items) := by
  match items with
  | [] => simp [ofItems, Syntax.depth, Syntax.depths, seqDepth]
  | [_] => simp [ofItems, Syntax.depths, seqDepth]
  | _ :: _ :: _ => simp [ofItems, Syntax.depth, Syntax.depths, seqDepth]

omit [Properties] in
/-- Items nest as deep as the deepest of them. -/
theorem depths_append (items items' : List Syntax) :
    Syntax.depths (items ++ items') = max (Syntax.depths items) (Syntax.depths items') := by
  induction items with
  | nil => simp [Syntax.depths]
  | cons item items ih => rw [List.cons_append, Syntax.depths, ih, Syntax.depths, Nat.max_assoc]

end Syntax

/-! ## Spelling -/

/-- The text spells these expressions one after the other, binds groups of these names, and nests
`depth` deep. -/
def Spells (w : Text) (es : List Expr) (names : List Text) (depth : Nat) : Prop :=
  ∃ items, Written w items names ∧ List.Forall₂ Syntax.Means items es ∧
    Syntax.depths items = depth ∧ ∀ e ∈ es, e.IsPart

/-- How deep a sequence of expressions nests whose parts nest `depth` deep. -/
abbrev seqDepth (es : List Expr) (depth : Nat) : Nat := Syntax.seqDepth es.length depth

namespace Spells

variable {w w' : Text} {es es' : List Expr} {names names' : List Text} {depth depth' : Nat}

theorem nil : Spells [] [] [] 0 := ⟨[], .nil, .nil, rfl, by simp⟩

/-- A text behind another spells what both spell, unless it begins with a question mark, which would
belong to the item before it. -/
theorem append (h : Spells w es names depth) (h' : Spells w' es' names' depth')
    (hw' : w'.head? ≠ some '?') :
    Spells (w ++ w') (es ++ es') (names ++ names') (max depth depth') := by
  obtain ⟨items, hw, hm, rfl, hp⟩ := h
  obtain ⟨items', hwritten, hm', rfl, hp'⟩ := h'
  refine ⟨items ++ items', hw.append hwritten hw', List.rel_append hm hm', ?_, ?_⟩
  · exact Syntax.depths_append items items'
  · exact List.forall_mem_append.2 ⟨hp, hp'⟩

/-- A text that is read as one item. -/
theorem of_item {item : Syntax} {e : Expr} (hw : Written w [item] names) (hm : item.Means e)
    (hp : e.IsPart) : Spells w [e] names item.depth :=
  ⟨[item], hw, .cons hm .nil, by simp [Syntax.depths], by simpa using hp⟩

theorem lineStart : Spells ['^'] [.look .start] [] 0 := by
  have := of_item .lineStart (e := .look .start) (by rw [Syntax.Means, Syntax.meaning]; rfl) rfl
  rwa [Syntax.depth] at this

theorem lineEnd : Spells ['$'] [.look .stop] [] 0 := by
  have := of_item .lineEnd (e := .look .stop) (by rw [Syntax.Means, Syntax.meaning]; rfl) rfl
  rwa [Syntax.depth] at this

theorem means_char (c : Char) : (Syntax.char c false).Means (.set (.single c)) := by
  rw [Syntax.Means, Syntax.meaning]
  rfl

/-- A character without a meaning of its own spells itself. -/
theorem char {c : Char} (hc : isMeta c = false) : Spells [c] [.set (.single c)] [] 0 := by
  have := of_item (.char hc) (means_char c) rfl
  rwa [Syntax.depth] at this

/-- A quoted text is spelt character by character. -/
theorem quoted (t : Text) : Spells (quote t) (t.map fun c => .set (.single c)) [] 0 := by
  refine ⟨_, .quoted t, ?_, ?_, ?_⟩
  · induction t with
    | nil => exact .nil
    | cons c t ih => exact .cons (means_char c) ih
  · induction t with
    | nil => rfl
    | cons c t ih => rw [List.map_cons, Syntax.depths, ih, Syntax.depth]; rfl
  · simp [Expr.isPart_set]

/-- A group that binds its text. -/
theorem named {name : Text} (h : Spells w es names depth) (hname : Reader.isGroupName name = true)
    (hgt : '>' ∉ name) :
    Spells ("(?P<".toList ++ name ++ ['>'] ++ w ++ [')']) [.group (some name) (.ofParts es)]
      (name :: names) (seqDepth es depth + 1) := by
  obtain ⟨items, hw, hm, rfl, hp⟩ := h
  have hbody := Syntax.means_ofItems hm hp
  have := of_item (hw.named hname hgt) (e := .group (some name) (.ofParts es))
    (by rw [Syntax.Means, Syntax.meaning, GroupKind.flags, hbody]; rfl) rfl
  rwa [Syntax.depth, Syntax.depth_ofItems, hm.length_eq] at this

/-- A group that only groups means what is in it. -/
theorem means_grouped {items : List Syntax} (hm : List.Forall₂ Syntax.Means items es)
    (hp : ∀ e ∈ es, e.IsPart) :
    (Syntax.group (.flagged ⟨[], []⟩) (.ofItems items)).Means (.ofParts es) := by
  have hbody := Syntax.means_ofItems hm hp
  have hflags : GroupKind.flags {} (.flagged ⟨[], []⟩) = ({} : Flags) := rfl
  rw [Syntax.Means, Syntax.meaning, hflags, hbody]
  rfl

/-- A group that only groups around one expression. -/
theorem grouped {e : Expr} (h : Spells w [e] names depth) :
    Spells ("(?:".toList ++ w ++ [')']) [e] names (depth + 1) := by
  obtain ⟨items, hw, hm, rfl, hp⟩ := h
  have := of_item hw.grouped (means_grouped hm hp) (hp e (by simp))
  rwa [Syntax.depth, Syntax.depth_ofItems, hm.length_eq] at this

/-- A group that may be missing. -/
theorem optional (h : Spells w es names depth) {e : Expr} (he : e ∈ es)
    (hg : e.greatest ≠ some 0) :
    Spells ("(?:".toList ++ w ++ ")?".toList) [.times 0 (some 1) true (.ofParts es)] names
      (seqDepth es depth + 2) := by
  obtain ⟨items, hw, hm, rfl, hp⟩ := h
  have hbody := means_grouped hm hp
  -- only the repetition of an expression that takes no text would be made simpler
  have hrep : Expr.repeated 0 (some 1) true (.ofParts es) =
      .times 0 (some 1) true (.ofParts es) := by
    simp [Expr.repeated, Expr.greatest_ofParts_ne_zero he hg]
  have := of_item hw.optional (e := .times 0 (some 1) true (.ofParts es))
    (by rw [Syntax.Means, Syntax.meaning, hbody]; exact congrArg (fun e => Except.ok (e, _)) hrep)
    rfl
  rwa [Syntax.depth, Syntax.depth, Syntax.depth_ofItems, hm.length_eq] at this

/-- What a text is parsed as that spells these expressions. -/
theorem parse (h : Spells w es names depth) (hnodup : names.Nodup) :
    Regex.parse w =
      if seqDepth es depth ≤ Syntax.depthLimit then
        if (Expr.ofParts es).fits then .ok (.ofParts es) else .error .size
      else .error .nesting := by
  obtain ⟨items, hw, hm, rfl, hp⟩ := h
  have hbody := Syntax.means_ofItems hm hp
  rw [Regex.parse, hw.read hnodup, Syntax.depth_ofItems, hm.length_eq]
  split
  · show ((Syntax.ofItems items).meaning {} >>= _) = _
    rw [hbody]
    rfl
  · rfl

end Spells

end Routing.Regex
