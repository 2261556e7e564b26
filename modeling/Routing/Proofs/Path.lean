import Routing.Proofs.Path.Canonical
import Routing.Proofs.Text.Utf8

/-!
# Encoded paths

A path is generated component by component, each text escaped, and read back by making the path
canonical and decoding its components. The way back is the inverse of the way out: a component that
encodes a text is decoded to that text with its placeholders, and placeholders stand for one
character each.

* `Path.Encodes` — a text whose bytes are those of another one; `Path.encodes_escape`
* `Path.decodeComponent_eq_mark` — a component is decoded to the placeholders of its text;
  `Path.decodeComponent_of_encodes` — of the text that it encodes
* `Path.restore_mark` — characters are put back for placeholders
* `Path.Rooted`, `Path.decode_normalize_of_rooted` — a path of components that encode texts
-/

namespace Routing

/-! ## Percent-encoding -/

namespace Percent

theorem hexValue_digit {n : Nat} (h : n < 16) : Numeral.hexValue? (digit n) = some n := by
  have hall : ∀ n < 16, Numeral.hexValue? (digit n) = some n := by decide
  exact hall n h

theorem bytes_group (b : UInt8) (rest : Text) : bytes (group b ++ rest) = b :: bytes rest := by
  have hb : b.toNat < 256 := b.toNat_lt
  show bytes ('%' :: digit (b.toNat / 16) :: digit (b.toNat % 16) :: rest) = _
  rw [bytes, hexValue_digit (by omega), hexValue_digit (by omega)]
  show UInt8.ofNat (16 * (b.toNat / 16) + b.toNat % 16) :: bytes rest = _
  rw [Nat.div_add_mod, UInt8.ofNat_toNat]

/-- The groups of a character are read as its bytes. -/
theorem bytes_groups (c : Char) (rest : Text) :
    bytes (groups c ++ rest) = Utf8.encode c ++ bytes rest := by
  rw [groups]
  induction Utf8.encode c with
  | nil => rfl
  | cons b bs ih => rw [List.flatMap_cons, List.append_assoc, bytes_group, ih, List.cons_append]

theorem bytes_cons {c : Char} (hc : c ≠ '%') (s : Text) :
    bytes (c :: s) = Utf8.encode c ++ bytes s := by
  rw [bytes]
  exact fun _ _ _ h _ => hc h

theorem digit_mem {n : Nat} (h : n < 16) : digit n ∈ "0123456789ABCDEF".toList := by
  have hall : ∀ n < 16, digit n ∈ "0123456789ABCDEF".toList := by decide
  exact hall n h

/-- Groups are made of percent signs and digits. -/
theorem mem_groups {c d : Char} (h : c ∈ groups d) : c ∈ "%0123456789ABCDEF".toList := by
  obtain ⟨b, -, hb⟩ := List.mem_flatMap.1 h
  have hlt : b.toNat < 256 := b.toNat_lt
  rw [group, List.mem_cons, List.mem_cons, List.mem_singleton] at hb
  rcases hb with rfl | rfl | rfl
  · exact List.mem_cons_self
  · exact List.mem_cons_of_mem _ (digit_mem (by omega))
  · exact List.mem_cons_of_mem _ (digit_mem (by omega))

end Percent

namespace Path

/-! ## Texts and what they encode -/

/-- Wherever it stands, `p` denotes the bytes of `t`. -/
def Encodes (p t : Text) : Prop :=
  ∀ rest, Percent.bytes (p ++ rest) = Utf8.encodeText t ++ Percent.bytes rest

theorem Encodes.nil : Encodes [] [] := fun _ => rfl

theorem Encodes.append {p q s t : Text} (h : Encodes p s) (h' : Encodes q t) :
    Encodes (p ++ q) (s ++ t) := by
  intro rest
  rw [List.append_assoc, h, h', Utf8.encodeText_append, List.append_assoc]

theorem encodes_singleton {c : Char} (hc : c ≠ '%') : Encodes [c] [c] := by
  intro rest
  rw [List.singleton_append, Percent.bytes_cons hc, Utf8.encodeText, List.flatMap_singleton]

/-- The groups of a character encode it. -/
theorem encodes_groups (c : Char) : Encodes (Percent.groups c) [c] := by
  intro rest
  rw [Percent.bytes_groups, Utf8.encodeText, List.flatMap_singleton]

/-- A text without percent signs encodes itself. -/
theorem encodes_self {t : Text} (h : '%' ∉ t) : Encodes t t := by
  induction t with
  | nil => exact .nil
  | cons c t ih =>
    obtain ⟨hc, ht⟩ := not_or.1 (mt List.mem_cons.2 h)
    exact (encodes_singleton (Ne.symm hc)).append (ih ht)

/-- A text can be encoded character by character. -/
theorem Encodes.flatMap {f : Char → Text} (h : ∀ c, Encodes (f c) [c]) (t : Text) :
    Encodes (t.flatMap f) t := by
  induction t with
  | nil => exact .nil
  | cons c t ih => exact (h c).append ih

/-- An escaped text encodes the text. -/
theorem encodes_escape (t : Text) : Encodes (escape t) t := by
  refine .flatMap (fun c => ?_) t
  split
  · next hplain =>
    apply encodes_singleton
    rintro rfl
    exact absurd hplain (by decide)
  · exact encodes_groups c

/-- A text that encodes another one is decoded to it. -/
theorem decode_of_encodes {p t : Text} (h : Encodes p t) : Percent.decode p = t := by
  have hbytes := h []
  rw [List.append_nil, Percent.bytes, List.append_nil] at hbytes
  rw [Percent.decode, hbytes, Utf8.decode_encodeText]

theorem decode_of_plain {s : Text} (hs : '%' ∉ s) : Percent.decode s = s :=
  decode_of_encodes (encodes_self hs)

/-! ## Escaped texts -/

/-- A character of an escaped text is plain or belongs to a group. -/
theorem mem_escape {s : Text} {c : Char} (h : c ∈ escape s) :
    isPlain c = true ∨ c ∈ "%0123456789ABCDEF".toList := by
  obtain ⟨d, -, hc⟩ := List.mem_flatMap.1 h
  split at hc
  · next hplain =>
    obtain rfl : c = d := List.mem_singleton.1 hc
    exact .inl hplain
  · exact .inr (Percent.mem_groups hc)

theorem slash_not_mem_escape (s : Text) : '/' ∉ escape s := fun h =>
  (mem_escape h).elim (by decide) (by decide)

theorem query_not_mem_escape (s : Text) : '?' ∉ escape s := fun h =>
  (mem_escape h).elim (by decide) (by decide)

theorem escape_ne_nil {s : Text} (hs : s ≠ []) : escape s ≠ [] := by
  intro h
  have hdecode := decode_of_encodes (encodes_escape s)
  rw [h, decode_of_encodes Encodes.nil] at hdecode
  exact hs hdecode.symm

theorem escape_of_plain {s : Text} (hs : ∀ c ∈ s, isPlain c = true) : escape s = s := by
  induction s with
  | nil => rfl
  | cons c s ih =>
    obtain ⟨hc, hs⟩ := List.forall_mem_cons.1 hs
    have hcons : escape (c :: s) = (if isPlain c then [c] else Percent.groups c) ++ escape s := rfl
    rw [hcons, if_pos hc, ih hs]
    rfl

/-! ## Placeholders -/

/-- Marking goes character by character. -/
theorem mark_cons (c : Char) (s : Text) : mark (c :: s) =
    (if c = '%' then percentMark else if c = '/' then slashMark else [c]) ++ mark s := rfl

theorem mark_append (s t : Text) : mark (s ++ t) = mark s ++ mark t := List.flatMap_append

theorem mark_of_plain {s : Text} (hs : ∀ c ∈ s, c ≠ '%' ∧ c ≠ '/') : mark s = s := by
  induction s with
  | nil => rfl
  | cons c s ih =>
    obtain ⟨hc, hs⟩ := List.forall_mem_cons.1 hs
    rw [mark_cons, if_neg hc.1, if_neg hc.2, ih hs]
    rfl

/-- The characters come back for which placeholders stand. -/
theorem restore_mark (s : Text) : restore (mark s) = s := by
  induction s with
  | nil => rfl
  | cons c s ih =>
    rw [mark_cons]
    -- a placeholder is put back where one was put in, and any other character is passed over
    split
    · next hc =>
      subst hc
      show restore ('%' :: '2' :: '5' :: mark s) = _
      rw [restore, ih]
    · split
      · next hc =>
        subst hc
        show restore ('%' :: '2' :: 'F' :: mark s) = _
        rw [restore, ih]
      · next hpercent hslash =>
        show restore (c :: mark s) = _
        rw [restore, ih]
        · exact fun _ h _ => hpercent h
        · exact fun _ h _ => hpercent h

/-- A marked text has its own characters and those of the placeholders. -/
theorem mem_mark {s : Text} {c : Char} (h : c ∈ mark s) : c ∈ s ∧ c ≠ '/' ∨ c ∈ "%25F".toList := by
  have hpercent : percentMark.all ("%25F".toList.contains ·) = true := by decide
  have hslash : slashMark.all ("%25F".toList.contains ·) = true := by decide
  obtain ⟨d, hd, hc⟩ := List.mem_flatMap.1 h
  split at hc
  · exact .inr (List.contains_iff_mem.1 (List.all_eq_true.1 hpercent c hc))
  · split at hc
    · exact .inr (List.contains_iff_mem.1 (List.all_eq_true.1 hslash c hc))
    · next hne =>
      obtain rfl : c = d := List.mem_singleton.1 hc
      exact .inl ⟨hd, hne⟩

theorem slash_not_mem_mark (s : Text) : '/' ∉ mark s := fun h =>
  (mem_mark h).elim (fun h => h.2 rfl) (by decide)

theorem mark_ne_nil {s : Text} (hs : s ≠ []) : mark s ≠ [] := by
  intro h
  have := restore_mark s
  rw [h] at this
  exact hs this.symm

/-! ## Components -/

/-- A component without percent signs is left alone, which is what decoding would give. -/
theorem decodeComponent_eq_mark {s : Text} (hs : '/' ∉ s) :
    decodeComponent s = mark (Percent.decode s) := by
  rw [decodeComponent]
  split
  · rfl
  · next hpercent =>
    rw [decode_of_plain hpercent, mark_of_plain]
    exact fun c hc => ⟨fun h => hpercent (h ▸ hc), fun h => hs (h ▸ hc)⟩

/-- What a component that encodes a text is decoded to. -/
theorem decodeComponent_of_encodes {p t : Text} (h : Encodes p t) (hslash : '/' ∉ p) :
    decodeComponent p = mark t := by
  rw [decodeComponent_eq_mark hslash, decode_of_encodes h]

/-- A request path is decoded component by component. -/
theorem decode_normalize (s : Text) :
    decode (normalize s) =
      if components (beforeQuery s) = [] then ['/']
      else (components (beforeQuery s)).flatMap fun part => '/' :: decodeComponent part := by
  rw [normalize_eq]
  by_cases hc : components (beforeQuery s) = []
  · rw [if_pos hc, hc]
    rfl
  · have hback : components (ofComponents (components (beforeQuery s))) = components (beforeQuery s) :=
      components_ofComponents fun _ => mem_components
    rw [if_neg hc, decode, if_neg, hback]
    intro hroot
    rw [hroot] at hback
    exact hc hback.symm

/-! ## Paths -/

/-- A row of components, each of which encodes a text, and what it is decoded to. -/
def Rooted (p d : Text) : Prop :=
  ∃ parts : List (Text × Text), p = parts.flatMap (fun x => '/' :: x.1) ∧
    d = parts.flatMap (fun x => '/' :: mark x.2) ∧
    ∀ x ∈ parts, x.1 ≠ [] ∧ '/' ∉ x.1 ∧ '?' ∉ x.1 ∧ Encodes x.1 x.2

theorem Rooted.nil : Rooted [] [] := ⟨[], rfl, rfl, by simp⟩

theorem Rooted.append {p d p' d' : Text} (h : Rooted p d) (h' : Rooted p' d') :
    Rooted (p ++ p') (d ++ d') := by
  obtain ⟨parts, rfl, rfl, hparts⟩ := h
  obtain ⟨parts', rfl, rfl, hparts'⟩ := h'
  refine ⟨parts ++ parts', ?_, ?_, List.forall_mem_append.2 ⟨hparts, hparts'⟩⟩
  · rw [List.flatMap_append]
  · rw [List.flatMap_append]

theorem rooted_part {a t : Text} (hne : a ≠ []) (hslash : '/' ∉ a) (hquery : '?' ∉ a)
    (h : Encodes a t) : Rooted ('/' :: a) ('/' :: mark t) :=
  ⟨[(a, t)], by simp, by simp, by simpa using ⟨hne, hslash, hquery, h⟩⟩

/-- More text at the end of the last component. -/
theorem Rooted.extend {p d a t : Text} (h : Rooted p d) (hp : p ≠ []) (hslash : '/' ∉ a)
    (hquery : '?' ∉ a) (ha : Encodes a t) : Rooted (p ++ a) (d ++ mark t) := by
  obtain ⟨parts, rfl, rfl, hparts⟩ := h
  have hne : parts ≠ [] := by
    rintro rfl
    exact hp rfl
  -- the text goes on with the last component
  obtain ⟨front, last, rfl⟩ := (List.eq_nil_or_concat parts).resolve_left hne
  rw [List.concat_eq_append] at hparts ⊢
  obtain ⟨hfront, hlast⟩ := List.forall_mem_append.1 hparts
  obtain ⟨hlne, hlslash, hlquery, hlast⟩ := hlast last List.mem_cons_self
  refine ⟨front ++ [(last.1 ++ a, last.2 ++ t)], ?_, ?_, List.forall_mem_append.2 ⟨hfront, ?_⟩⟩
  · simp
  · simp [mark_append]
  · rw [List.forall_mem_singleton]
    refine ⟨by simp [hlne], ?_, ?_, hlast.append ha⟩
    · rw [List.mem_append, not_or]
      exact ⟨hlslash, hslash⟩
    · rw [List.mem_append, not_or]
      exact ⟨hlquery, hquery⟩

/-- A rooted path has no question mark. -/
theorem not_mem_rooted {p d : Text} (h : Rooted p d) : '?' ∉ p := by
  obtain ⟨parts, rfl, -, hparts⟩ := h
  intro hmem
  obtain ⟨x, hx, hq⟩ := List.mem_flatMap.1 hmem
  rcases List.mem_cons.1 hq with hq | hq
  · exact absurd hq (by decide)
  · exact (hparts x hx).2.2.1 hq

/-- What a row of components is decoded to. -/
theorem decode_normalize_of_rooted {p d : Text} (h : Rooted p d) :
    decode (normalize p) = if p = [] then ['/'] else d := by
  have hquery : beforeQuery p = p := beforeQuery_of_plain (not_mem_rooted h)
  obtain ⟨parts, rfl, rfl, hparts⟩ := h
  -- the components of the path are those it was put together of
  have hcomponents : components (parts.flatMap fun x => '/' :: x.1) = parts.map Prod.fst := by
    have hfirst : ∀ a ∈ parts.map Prod.fst, a ≠ [] ∧ '/' ∉ a := by
      intro a ha
      obtain ⟨x, hx, rfl⟩ := List.mem_map.1 ha
      exact ⟨(hparts x hx).1, (hparts x hx).2.1⟩
    have := components_flatMap hfirst
    rwa [List.flatMap_map] at this
  rw [decode_normalize, hquery, hcomponents]
  by_cases hnil : parts = []
  · subst hnil
    rfl
  · have hp : parts.flatMap (fun x => '/' :: x.1) ≠ [] := by
      intro hp
      cases parts with
      | nil => exact hnil rfl
      | cons x parts => cases hp
    rw [if_neg (mt List.map_eq_nil_iff.1 hnil), if_neg hp, List.flatMap_map]
    apply List.flatMap_congr
    intro x hx
    obtain ⟨-, hslash, -, hencodes⟩ := hparts x hx
    rw [decodeComponent_of_encodes hencodes hslash]

end Path

end Routing
