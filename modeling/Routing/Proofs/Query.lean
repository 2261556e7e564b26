import Mathlib.Data.List.Perm.Basic
import Routing.Proofs.Path
import Routing.Query

/-!
# Reading a query string

A query string is read by cutting it at the ampersands, each part at its first equals sign, and by
undoing the form encoding of both sides. What is read are the leaves of the parameters, each under
the key that leads to it: form encoding can be undone, and it leaves neither ampersands nor equals
signs in keys and values, so that the cuts are where the pairs were joined. The order is not that of
the parameters, as pairs are sorted as texts; but what belongs to one entry stays together, and the
items of a list stay in order.

* `Query.decode`, `Query.decode_encode` — form encoding undone; `Query.encode_eq_plusForSpace`
* `Query.read` — the keys and values of a query string; `Query.read_intercalate`
* `Query.leaves` — what of a parameter is told; `Query.Tells` — in which orders
* `Query.exists_tells`, `Query.exists_ofParams` — what is written tells the leaves
* `Query.read_ofParams` — what is read from a query string are the leaves of its parameters
-/

namespace Routing

/-- Whether a value holds other values. -/
def Value.isCollection : Value → Bool
  | .list _ | .map _ => true
  | _ => false

namespace Query

/-! ## Form encoding -/

/-- A plus sign stands for a space. -/
def spaceOfPlus (c : Char) : Char := if c = '+' then ' ' else c

/-- The text that a form-encoded text denotes. -/
def decode (s : Text) : Text :=
  Percent.decode (s.map spaceOfPlus)

/-- The form encoding of a character. -/
def encodeChar (c : Char) : Text :=
  if c = ' ' then ['+'] else if isUnreserved c then [c] else Percent.groups c

theorem encode_cons (c : Char) (s : Text) : encode (c :: s) = encodeChar c ++ encode s :=
  List.flatMap_cons

/-- An encoded text has unreserved characters, plus and percent signs. -/
theorem mem_encode {c : Char} {s : Text} (h : c ∈ encode s) :
    isUnreserved c = true ∨ c ∈ "+%".toList := by
  have hgroup : "%0123456789ABCDEF".toList.all
      (fun c => isUnreserved c || "+%".toList.contains c) = true := by decide
  obtain ⟨d, -, hc⟩ := List.mem_flatMap.1 h
  split at hc
  · rw [List.mem_singleton.1 hc]
    exact .inr (by decide)
  · split at hc
    · next hkeep =>
      rw [List.mem_singleton.1 hc]
      exact .inl hkeep
    · have := List.all_eq_true.1 hgroup c (Percent.mem_groups hc)
      rwa [Bool.or_eq_true, List.contains_iff_mem] at this

/-- With spaces for plus signs, an encoded character is read as itself. -/
theorem encodes_encodeChar (c : Char) : Path.Encodes ((encodeChar c).map spaceOfPlus) [c] := by
  rw [encodeChar]
  split
  · next hspace =>
    subst hspace
    exact Path.encodes_singleton (by decide)
  · split
    · next hkeep =>
      have hne : c ≠ '+' ∧ c ≠ '%' := by
        constructor <;> rintro rfl <;> exact absurd hkeep (by decide)
      rw [List.map_singleton, spaceOfPlus, if_neg hne.1]
      exact Path.encodes_singleton hne.2
    -- the groups of a character have no plus sign
    · have hgroups : (Percent.groups c).map spaceOfPlus = (Percent.groups c).map id := by
        apply List.map_congr_left
        intro d hd
        rw [spaceOfPlus, if_neg, id]
        rintro rfl
        exact absurd (Percent.mem_groups hd) (by decide)
      rw [hgroups, List.map_id]
      exact Path.encodes_groups c

/-- Form encoding is undone. -/
theorem decode_encode (s : Text) : decode (encode s) = s := by
  rw [decode, encode, List.map_flatMap]
  exact Path.decode_of_encodes (.flatMap encodes_encodeChar s)

/-! ## Form encoding in two steps -/

/-- The text with a plus sign for every group of a space. -/
def plusForSpace : Text → Text
  | '%' :: '2' :: '0' :: s => '+' :: plusForSpace s
  | c :: s => c :: plusForSpace s
  | [] => []

theorem plusForSpace_cons {c : Char} (hc : c ≠ '%') (s : Text) :
    plusForSpace (c :: s) = c :: plusForSpace s := by
  rw [plusForSpace]
  exact fun _ h _ => hc h

/-- A group other than that of the space is passed over. -/
theorem plusForSpace_group {b : UInt8} (hb : b.toNat ≠ 0x20) (s : Text) :
    plusForSpace (Percent.group b ++ s) = Percent.group b ++ plusForSpace s := by
  have hlt : b.toNat < 256 := b.toNat_lt
  have hhigh := Percent.hexValue_digit (show b.toNat / 16 < 16 by omega)
  have hlow := Percent.hexValue_digit (show b.toNat % 16 < 16 by omega)
  have hpercent {n : Nat} (hn : n < 16) : Percent.digit n ≠ '%' := by
    intro h
    exact absurd (h ▸ Percent.digit_mem hn) (by decide)
  show plusForSpace ('%' :: Percent.digit (b.toNat / 16) :: Percent.digit (b.toNat % 16) :: s) = _
  rw [plusForSpace, plusForSpace_cons (hpercent (by omega)),
    plusForSpace_cons (hpercent (by omega))]
  · rfl
  · rintro t - h
    obtain ⟨htwo, hzero, -⟩ := List.cons_eq_cons.1 h |>.imp_right List.cons_eq_cons.1
    rw [htwo] at hhigh
    rw [hzero] at hlow
    have h2 : 2 = b.toNat / 16 := Option.some.inj hhigh
    have h0 : 0 = b.toNat % 16 := Option.some.inj hlow
    omega

/-- The groups of a character other than the space are passed over. -/
theorem plusForSpace_groups {c : Char} (hc : c ≠ ' ') (s : Text) :
    plusForSpace (Percent.groups c ++ s) = Percent.groups c ++ plusForSpace s := by
  -- a byte of several is no ASCII code, so that no group reads as a space
  have hbytes : ∀ b ∈ Utf8.encode c, b.toNat ≠ 0x20 := by
    intro b hb hspace
    rcases Utf8.toNat_of_mem_encode hb with h | h
    · exact hc (Char.toNat_inj.1 (h.symm.trans hspace))
    · omega
  rw [Percent.groups]
  generalize Utf8.encode c = bytes at hbytes ⊢
  induction bytes with
  | nil => rfl
  | cons b bs ih =>
    obtain ⟨hb, hbs⟩ := List.forall_mem_cons.1 hbytes
    rw [List.flatMap_cons, List.append_assoc, plusForSpace_group hb, ih hbs, List.append_assoc]

/-- Form encoding is percent-encoding with the groups of spaces replaced afterwards: no group of
another character is taken for one. -/
theorem encode_eq_plusForSpace (s : Text) :
    encode s = plusForSpace (Percent.encode isUnreserved s) := by
  induction s with
  | nil => rfl
  | cons c s ih =>
    have hcons : Percent.encode isUnreserved (c :: s) =
        (if isUnreserved c then [c] else Percent.groups c) ++ Percent.encode isUnreserved s := rfl
    rw [encode_cons, hcons, encodeChar, ih]
    -- the space, a character that is kept, and one that is put in groups
    split
    · next hspace =>
      subst hspace
      have hgroups : Percent.groups ' ' = "%20".toList := by decide
      rw [if_neg (by decide), hgroups]
      rfl
    · next hspace =>
      split
      · next hkeep =>
        have hc : c ≠ '%' := by
          rintro rfl
          exact absurd hkeep (by decide)
        exact (plusForSpace_cons hc _).symm
      · exact (plusForSpace_groups hspace _).symm

/-! ## Joined texts -/

/-- Two texts with an ampersand between them. -/
def joined (s t : Text) : Text := s ++ ['&'] ++ t

theorem join?_cons (s : Text) (texts : List Text) :
    join? (s :: texts) = Option.merge joined (some s) (join? texts) := by
  cases texts with
  | nil => simp [join?]
  | cons t texts => simp [join?, joined]

theorem join?_toList (o : Option Text) : join? o.toList = o := by
  cases o with
  | none => rfl
  | some s => simp [join?]

theorem join?_append (texts texts' : List Text) :
    join? (texts ++ texts') = Option.merge joined (join? texts) (join? texts') := by
  induction texts with
  | nil => simp [join?]
  | cons s texts ih =>
    rw [List.cons_append, join?_cons, join?_cons, ih]
    cases join? texts <;> cases join? texts' <;> simp [joined]

/-- Rows of texts are joined one by one or all at once. -/
theorem join?_filterMap {α : Type} (l : List α) (f : α → List Text) :
    join? (l.filterMap fun a => join? (f a)) = join? (l.flatMap f) := by
  induction l with
  | nil => rfl
  | cons a l ih =>
    have hcons : ((a :: l).filterMap fun a => join? (f a)) =
        (join? (f a)).toList ++ l.filterMap fun a => join? (f a) := by
      cases h : join? (f a) <;> simp [h]
    rw [hcons, join?_append, join?_toList, ih, List.flatMap_cons, join?_append]

theorem getD_join? (texts : List Text) : (join? texts).getD [] = ['&'].intercalate texts := by
  cases texts <;> rfl

/-! ## Reading -/

/-- A key and its value from the two sides of the first equals sign. -/
def readPair (part : Text) : Text × Text :=
  match Text.cut? '=' part with
  | some (key, value) => (decode key, decode value)
  | none => (decode part, [])

/-- The keys and values of a query string. -/
def read (s : Text) : List (Text × Text) :=
  if s.isEmpty then [] else (s.splitOn '&').map readPair

/-- A key and its value as they are written. -/
def pairText (p : Text × Text) : Text := pair p.1 p.2

theorem readPair_pairText (p : Text × Text) : readPair (pairText p) = p := by
  have hkey : '=' ∉ encode p.1 := fun h => (mem_encode h).elim (by decide) (by decide)
  rw [readPair, pairText, pair, List.append_assoc, List.singleton_append, Text.cut?_append hkey]
  simp only [decode_encode]

/-- A pair has no ampersand. -/
theorem mem_pairText {c : Char} {p : Text × Text} (h : c ∈ pairText p) :
    isUnreserved c = true ∨ c ∈ "=+%".toList := by
  have hencode {s : Text} (h : c ∈ encode s) : isUnreserved c = true ∨ c ∈ "=+%".toList :=
    (mem_encode h).imp_right (List.mem_cons_of_mem _)
  rw [pairText, pair, List.mem_append, List.mem_append] at h
  rcases h with (h | h) | h
  · exact hencode h
  · exact .inr (List.mem_singleton.1 h ▸ List.mem_cons_self)
  · exact hencode h

theorem intercalate_pairText_ne_nil {l : List (Text × Text)} (hl : l ≠ []) :
    ['&'].intercalate (l.map pairText) ≠ [] := by
  have hpair (p : Text × Text) : pairText p ≠ [] := by simp [pairText, pair]
  match l with
  | [p] => simpa using hpair p
  | p :: q :: l => simp [List.intercalate_cons_cons]

/-- Pairs are read where they were joined. -/
theorem read_intercalate (l : List (Text × Text)) :
    read (['&'].intercalate (l.map pairText)) = l := by
  by_cases hl : l = []
  · subst hl
    rfl
  · have hparts : ∀ part ∈ l.map pairText, '&' ∉ part := by
      intro part hpart
      obtain ⟨p, -, rfl⟩ := List.mem_map.1 hpart
      exact fun h => (mem_pairText h).elim (by decide) (by decide)
    have hback : readPair ∘ pairText = id := funext readPair_pairText
    rw [read, if_neg (mt List.isEmpty_iff.1 (intercalate_pairText_ne_nil hl)),
      List.splitOn_intercalate '&' hparts (mt List.map_eq_nil_iff.1 hl), List.map_map, hback,
      List.map_id]

/-! ## The leaves of a parameter -/

mutual

/-- The scalars inside a parameter that have a path form, each under the key that leads to it. -/
def leaves (key : Text) : Value → List (Text × Text)
  | .map entries => entryLeaves key entries
  | .list items => itemLeaves (key ++ "[]".toList) items
  | v => v.param?.toList.map fun s => (key, s)

/-- The leaves of the items of a list, under one key. -/
def itemLeaves (key : Text) : List Value → List (Text × Text)
  | [] => []
  | v :: vs => leaves key v ++ itemLeaves key vs

/-- The leaves of the entries of a map, each under a key of its own. -/
def entryLeaves (key : Text) : List (Text × Value) → List (Text × Text)
  | [] => []
  | (sub, v) :: es => leaves (key ++ ['['] ++ sub ++ [']']) v ++ entryLeaves key es

end

theorem itemLeaves_eq (key : Text) (items : List Value) :
    itemLeaves key items = items.flatMap (leaves key) := by
  induction items with
  | nil => rfl
  | cons v vs ih => rw [itemLeaves, ih, List.flatMap_cons]

/-- The leaves of a map are those of its entries, with their keys in brackets. -/
theorem entryLeaves_eq (key : Text) (entries : List (Text × Value)) :
    entryLeaves key entries =
      entries.flatMap fun e => leaves (key ++ ['['] ++ e.1 ++ [']']) e.2 := by
  induction entries with
  | nil => rfl
  | cons e es ih => rw [entryLeaves, ih, List.flatMap_cons]

theorem itemPairs_eq (key : Text) (items : List Value) :
    itemPairs key items = items.filterMap (pairs key) := by
  induction items with
  | nil => rfl
  | cons v vs ih =>
    rw [itemPairs, ih, List.filterMap_cons]
    cases pairs key v <;> rfl

/-- The pairs of a map are those of its entries, with their keys in brackets. -/
theorem entryPairs_eq (key : Text) (entries : List (Text × Value)) :
    entryPairs key entries =
      entries.filterMap fun e => pairs (key ++ ['['] ++ e.1 ++ [']']) e.2 := by
  induction entries with
  | nil => rfl
  | cons e es ih =>
    rw [entryPairs, ih, List.filterMap_cons]
    cases pairs (key ++ ['['] ++ e.1 ++ [']']) e.2 <;> rfl

/-- The orders in which the leaves of a parameter are told. Those of a list come item by item; those
of a map come entry by entry, but in any order of the entries. -/
inductive Tells : Text → Value → List (Text × Text) → Prop where
  | scalar {key : Text} {v : Value} (h : v.isCollection = false) : Tells key v (leaves key v)
  | list {key : Text} (blocks : List (Value × List (Text × Text)))
    (h : ∀ b ∈ blocks, Tells (key ++ "[]".toList) b.1 b.2) :
    Tells key (.list (blocks.map Prod.fst)) (blocks.flatMap Prod.snd)
  | map {key : Text} {entries : List (Text × Value)}
    (blocks : List ((Text × Value) × List (Text × Text)))
    (hperm : (blocks.map Prod.fst).Perm entries)
    (h : ∀ b ∈ blocks, Tells (key ++ ['['] ++ b.1.1 ++ [']']) b.1.2 b.2) :
    Tells key (.map entries) (blocks.flatMap Prod.snd)

/-- What is told of a value are its leaves, in some order. -/
theorem Tells.perm {key : Text} {v : Value} {l : List (Text × Text)} (h : Tells key v l) :
    l.Perm (leaves key v) := by
  -- a map is told in the order of its texts, a list in its own
  induction h with
  | scalar => exact .rfl
  | list blocks _ ih =>
    rw [leaves, itemLeaves_eq, List.flatMap_map]
    exact List.Perm.flatMap_left blocks ih
  | map blocks hperm _ ih =>
    rw [leaves, entryLeaves_eq]
    refine .trans ?_ (hperm.flatMap_right _)
    rw [List.flatMap_map]
    exact List.Perm.flatMap_left blocks ih

/-! ## What is written -/

/-- Texts come in another order when what they are made from does. -/
theorem exists_perm_filterMap {α β : Type} {f : α → Option β} {l : List β} {as : List α}
    (h : l.Perm (as.filterMap f)) : ∃ as' : List α, as'.Perm as ∧ as'.filterMap f = l := by
  induction l generalizing as with
  | nil => exact ⟨as, .rfl, List.nil_perm.1 h⟩
  | cons b l ih =>
    obtain ⟨a, ha, hb⟩ := List.mem_filterMap.1 (h.subset List.mem_cons_self)
    obtain ⟨front, back, rfl⟩ := List.append_of_mem ha
    rw [List.filterMap_append, List.filterMap_cons_some hb] at h
    have hrest := (h.trans List.perm_middle).cons_inv
    rw [← List.filterMap_append] at hrest
    obtain ⟨as', hperm, rfl⟩ := ih hrest
    exact ⟨a :: as', (hperm.cons a).trans List.perm_middle.symm, List.filterMap_cons_some hb⟩

section Blocks

variable {α : Type} {T : α → List (Text × Text) → Prop} {f : α → Option Text} {as : List α}

/-- What each of several things is written as, side by side with the things. -/
theorem exists_blocks (h : ∀ a ∈ as, ∃ l, T a l ∧ f a = join? (l.map pairText)) :
    ∃ blocks : List (α × List (Text × Text)), blocks.map Prod.fst = as ∧
      (∀ b ∈ blocks, T b.1 b.2) ∧
      as.filterMap f = blocks.filterMap fun b => join? (b.2.map pairText) := by
  induction as with
  | nil => exact ⟨[], rfl, by simp, rfl⟩
  | cons a as ih =>
    obtain ⟨⟨l, ht, hl⟩, has⟩ := List.forall_mem_cons.1 h
    obtain ⟨blocks, hmap, hblocks, htexts⟩ := ih has
    refine ⟨(a, l) :: blocks, ?_, List.forall_mem_cons.2 ⟨ht, hblocks⟩, ?_⟩
    · rw [List.map_cons, hmap]
    · rw [List.filterMap_cons, List.filterMap_cons, hl, htexts]

/-- In order, the texts are those of one row of pairs. -/
theorem exists_join? (h : ∀ a ∈ as, ∃ l, T a l ∧ f a = join? (l.map pairText)) :
    ∃ blocks : List (α × List (Text × Text)), blocks.map Prod.fst = as ∧
      (∀ b ∈ blocks, T b.1 b.2) ∧
      join? (as.filterMap f) = join? ((blocks.flatMap Prod.snd).map pairText) := by
  obtain ⟨blocks, hmap, hblocks, htexts⟩ := exists_blocks h
  refine ⟨blocks, hmap, hblocks, ?_⟩
  rw [htexts, join?_filterMap, List.map_flatMap]

/-- Sorted, they are those of a row that tells the things in some order. -/
theorem exists_join?_sorted (h : ∀ a ∈ as, ∃ l, T a l ∧ f a = join? (l.map pairText)) :
    ∃ blocks : List (α × List (Text × Text)), (blocks.map Prod.fst).Perm as ∧
      (∀ b ∈ blocks, T b.1 b.2) ∧
      join? (sorted (as.filterMap f)) = join? ((blocks.flatMap Prod.snd).map pairText) := by
  obtain ⟨as', hperm, has'⟩ := exists_perm_filterMap (List.mergeSort_perm (as.filterMap f) _)
  obtain ⟨blocks, hmap, hblocks, htexts⟩ := exists_join? fun a ha => h a (hperm.subset ha)
  refine ⟨blocks, hmap ▸ hperm, hblocks, ?_⟩
  rw [← htexts, has', sorted]

end Blocks

/-- A value that is no collection gives one pair, or none. -/
theorem pairs_of_scalar {key : Text} {v : Value} (h : v.isCollection = false) :
    pairs key v = join? ((leaves key v).map pairText) := by
  cases v with
  | map | list => cases h
  | nil | bool | int | str | symbol => simp [pairs, leaves, Value.param?, join?, pairText]

mutual

/-- The text of a parameter is that of its leaves, told in one of their orders. -/
theorem exists_tells (key : Text) (v : Value) :
    ∃ l, Tells key v l ∧ pairs key v = join? (l.map pairText) := by
  cases v with
  | map entries =>
    obtain ⟨blocks, hperm, htells, htexts⟩ := exists_join?_sorted (exists_tells_entries key entries)
    refine ⟨_, .map blocks hperm htells, ?_⟩
    rw [pairs, entryPairs_eq, htexts]
  | list items =>
    obtain ⟨blocks, rfl, htells, htexts⟩ :=
      exists_join? (exists_tells_items (key ++ "[]".toList) items)
    refine ⟨_, .list blocks htells, ?_⟩
    rw [pairs, itemPairs_eq, htexts]
  | nil | bool | int | str | symbol => exact ⟨_, .scalar rfl, pairs_of_scalar rfl⟩

theorem exists_tells_items (key : Text) (items : List Value) :
    ∀ v ∈ items, ∃ l, Tells key v l ∧ pairs key v = join? (l.map pairText) := by
  cases items with
  | nil => simp
  | cons v vs => exact List.forall_mem_cons.2 ⟨exists_tells key v, exists_tells_items key vs⟩

theorem exists_tells_entries (key : Text) (entries : List (Text × Value)) :
    ∀ e ∈ entries, ∃ l, Tells (key ++ ['['] ++ e.1 ++ [']']) e.2 l ∧
      pairs (key ++ ['['] ++ e.1 ++ [']']) e.2 = join? (l.map pairText) := by
  cases entries with
  | nil => simp
  | cons e es =>
    obtain ⟨sub, v⟩ := e
    exact List.forall_mem_cons.2 ⟨exists_tells _ v, exists_tells_entries key es⟩

end

/-- The query string is that of a row of pairs that tells the parameters in some order. -/
theorem exists_ofParams (params : Params) :
    ∃ blocks : List ((Text × Value) × List (Text × Text)),
      (blocks.map Prod.fst).Perm params.entries ∧ (∀ b ∈ blocks, Tells b.1.1 b.1.2 b.2) ∧
      ofParams params = ['&'].intercalate ((blocks.flatMap Prod.snd).map pairText) := by
  obtain ⟨blocks, hperm, htells, htexts⟩ :=
    exists_join?_sorted fun e (_ : e ∈ params.entries) => exists_tells e.1 e.2
  refine ⟨blocks, hperm, htells, ?_⟩
  rw [← getD_join?, ← htexts, getD_join?]
  rfl

/-- The leaves of all parameters. -/
def leavesOf (params : Params) : List (Text × Text) :=
  params.entries.flatMap fun e => leaves e.1 e.2

/-- What is read from a query string are the leaves of the parameters, one parameter after another:
the parameters come in some order, and the leaves of each in one of the orders in which they may be
told. Only parameters without leaves leave the query string empty. -/
theorem read_ofParams (params : Params) :
    (∃ blocks : List ((Text × Value) × List (Text × Text)),
      (blocks.map Prod.fst).Perm params.entries ∧ (∀ b ∈ blocks, Tells b.1.1 b.1.2 b.2) ∧
      read (ofParams params) = blocks.flatMap Prod.snd) ∧
    (read (ofParams params)).Perm (leavesOf params) ∧
    (ofParams params = [] ↔ leavesOf params = []) := by
  obtain ⟨blocks, hperm, htells, hparams⟩ := exists_ofParams params
  have hread : read (ofParams params) = blocks.flatMap Prod.snd := by
    rw [hparams, read_intercalate]
  -- the blocks stand in the order of their texts, which permutes the parameters
  have hleaves : (blocks.flatMap Prod.snd).Perm (leavesOf params) := by
    refine .trans ?_ (hperm.flatMap_right _)
    rw [List.flatMap_map]
    exact List.Perm.flatMap_left blocks fun b hb => (htells b hb).perm
  refine ⟨⟨blocks, hperm, htells, hread⟩, hread ▸ hleaves, ?_⟩
  constructor
  · intro hnil
    rw [hnil] at hread
    rw [← hread] at hleaves
    exact List.nil_perm.1 hleaves
  · intro hnil
    rw [hnil] at hleaves
    rw [hparams, hleaves.eq_nil]
    rfl

end Query

end Routing
